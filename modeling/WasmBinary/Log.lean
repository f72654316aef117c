import WasmBinary.EncodeError

/-!
# Log records

What is told about a rendering while it goes on: each new signature, the outcome of numbering, the size of each section, and the
size of the whole. Records are values; a computation that logs carries the list of its records, which outlives a failure.
-/

namespace WasmBinary

/-- How important a record is. -/
inductive LogLevel where
  | error
  | warn
  | debug
  | trace
  deriving DecidableEq, Repr

/-- The name of a level. -/
def LogLevel.name : LogLevel → String
  | error => "error"
  | warn => "warn"
  | debug => "debug"
  | trace => "trace"

/-- Something that happened during a rendering. -/
inductive LogRecord where
  /-- A signature entered the catalog at an index. -/
  | registered (index : Nat) (signature : Signature)
  /-- All functions and signatures have their numbers. -/
  | resolved (signatures imports defined : Nat) (revision : Revision)
  /-- A section with a payload of some bytes is written. -/
  | sectionWritten (name : String) (size : Nat)
  /-- A module was rendered to some bytes. -/
  | rendered (size : Nat)
  deriving DecidableEq, Repr

namespace LogRecord

/-- The level of a record. -/
def level : LogRecord → LogLevel
  | registered .. => .trace
  | resolved .. | sectionWritten .. | rendered .. => .debug

/-- The wording of a record. -/
def message : LogRecord → String
  | registered index s => "registered signature #" ++ Nat.repr index ++ ": " ++ s.text
  | resolved signatures imports defined r =>
    "resolved " ++ Nat.repr signatures ++ " signatures, " ++ Nat.repr imports ++ " imports, " ++ Nat.repr defined ++
      " defined functions for version 0x" ++ Text.hex r.tag.toNat
  | sectionWritten name size => name ++ " section: " ++ Nat.repr size ++ " bytes"
  | rendered size => "rendered module: " ++ Nat.repr size ++ " bytes"

end LogRecord

/-- The records so far, oldest first. -/
abbrev Log := List LogRecord

/-- A computation that logs and may fail. -/
abbrev LogM := EStateM EncodeError Log

/-- Adds a record to the log. -/
def LogM.log (record : LogRecord) : LogM Unit :=
  modify fun log : Log => log ++ [record]

end WasmBinary
