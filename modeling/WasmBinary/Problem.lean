import WasmBinary.Stack.History
import WasmBinary.Json.Record
import WasmBinary.Log

/-!
# Problems

What a compiler has to say about a program: an error or a warning, with the stack of calls that lead to it.
-/

namespace WasmBinary

/-- How bad a problem is. -/
inductive Severity where
  | error
  | warning
  deriving DecidableEq, Repr, Inhabited

namespace Severity

/-- The name of a severity. -/
def name : Severity → String
  | error => "error"
  | warning => "warning"

/-- The level at which problems of a severity are logged. -/
def logLevel : Severity → LogLevel
  | error => .error
  | warning => .warn

end Severity

/-- Something wrong with a program. -/
structure Problem where
  /-- How bad it is. -/
  severity : Severity
  /-- What it is. -/
  text : String
  /-- Where it is, if that is known. -/
  location : Option Place
  deriving DecidableEq, Repr, Inhabited

namespace Problem

/-- The text of a problem with the stack of calls that lead to it. -/
def report (g : CallHistory) (p : Problem) : String :=
  p.text ++ g.stackText p.location

/-- The messages about some problems, each with its severity, in order. -/
def reportAll (g : CallHistory) (ps : List Problem) : List (Severity × String) :=
  ps.map fun p => (p.severity, p.report g)

end Problem

instance : JsonData Severity where
  toJson s := toJson s.name
  ofJson? j := do
    let name ← j.choice?
    [Severity.error, .warning].find? (·.name = name)

instance : JsonData Method where
  toJson m := .ofFields [("class_name", some (toJson m.className)), ("name", some (toJson m.name))]
  ofJson? j := do
    match ← j.fields? ["class_name", "name"] with
    | [className, name] => return ⟨← Json.required? className, ← Json.required? name⟩
    | _ => none

instance : JsonData SourceLine where
  toJson s := .ofFields [("file_name", s.fileName.map toJson), ("line", some (toJson s.line))]
  ofJson? j := do
    match ← j.fields? ["file_name", "line"] with
    | [fileName, line] => return ⟨← Json.optional? fileName, ← Json.required? line⟩
    | _ => none

instance : JsonData Place where
  toJson l := .ofFields [("method", some (toJson l.method)), ("source", some (toJson l.source))]
  ofJson? j := do
    match ← j.fields? ["method", "source"] with
    | [method, source] => return ⟨← Json.optional? method, ← Json.optional? source⟩
    | _ => none

instance : JsonData Problem where
  toJson p := .ofFields [("severity", some (toJson p.severity)), ("text", some (toJson p.text)),
    ("location", p.location.map toJson)]
  ofJson? j := do
    match ← j.fields? ["severity", "text", "location"] with
    | [severity, text, location] =>
      return ⟨← Json.required? severity, ← Json.required? text, ← Json.optional? location⟩
    | _ => none

end WasmBinary
