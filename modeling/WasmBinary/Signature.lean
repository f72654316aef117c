import WasmBinary.ValueType

/-!
# Signatures

A signature is what a caller has to know of a function: the types of its parameters in order, and the type of its result if it
has one. Its text, `(i32, f32) -> i64` or `(i32)`, is what error messages and log records show.
-/

namespace WasmBinary

/-- The parameter types and the result type of a function. -/
structure Signature where
  /-- The type of the result; `none` for a function that returns nothing. -/
  result : Option ValueType
  /-- The types of the parameters, first parameter first. -/
  params : List ValueType
  deriving DecidableEq, Repr, Inhabited

namespace Signature

/-- The names of a list of types, with a comma and a blank between neighbours. -/
def paramText : List ValueType → String
  | [] => ""
  | [t] => t.name
  | t :: ts => t.name ++ ", " ++ paramText ts

/-- The tail of a signature's text: an arrow and the result type, or nothing. -/
def resultText : Option ValueType → String
  | none => ""
  | some t => " -> " ++ t.name

/-- The text of a signature: its parameters in parentheses, then its result. -/
def text (s : Signature) : String :=
  "(" ++ paramText s.params ++ ")" ++ resultText s.result

end Signature

end WasmBinary
