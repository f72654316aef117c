/-!
# Locations

Where in the compiled program a problem lies: a method of a class, and a line of a source file. A location is shown as
`Class.name(File:line)`, with the directories of the file left out.
-/

namespace WasmBinary

/-- A method of a class. -/
structure Method where
  /-- The name of the class. -/
  className : String
  /-- The name of the method in its class. -/
  name : String
  deriving DecidableEq, Repr, Inhabited

namespace Method

/-- The class and the name, with a point between them. -/
def text (m : Method) : String :=
  m.className ++ "." ++ m.name

/-- Methods are in order by class and then by name, each compared by code points. -/
def le (m n : Method) : Bool :=
  if m.className = n.className then decide (m.name ≤ n.name) else decide (m.className < n.className)

/-- Methods in order; equal ones stay in the order they came in. -/
def sort (ms : List Method) : List Method :=
  ms.mergeSort le

end Method

/-- A line of a source file. -/
structure SourceLine where
  /-- The path of the file, if it is known. -/
  fileName : Option String
  /-- The number of the line. -/
  line : UInt32
  deriving DecidableEq, Repr, Inhabited

namespace SourceLine

/-- The last component of a path: what follows its last slash. -/
def shortName (path : String) : String :=
  String.ofList (path.toList.reverse.takeWhile (· ≠ '/')).reverse

/-- The file, without directories, and the line, in parentheses. -/
def text (s : SourceLine) : String :=
  let file := match s.fileName with
    | some path => shortName path ++ ":"
    | none => ""
  "(" ++ file ++ Nat.repr s.line.toNat ++ ")"

end SourceLine

/-- The text of a place in a method. -/
def locationText (method : Option Method) (source : Option SourceLine) : String :=
  let place := match method with
    | some m => m.text
    | none => "unknown method"
  let line := match source with
    | some s => s.text
    | none => ""
  place ++ line

/-- Where a problem lies. -/
structure Place where
  /-- The method, if it is known. -/
  method : Option Method
  /-- The line of the source, if it is known. -/
  source : Option SourceLine
  deriving DecidableEq, Repr, Inhabited

end WasmBinary
