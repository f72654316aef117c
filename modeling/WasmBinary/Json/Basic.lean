/-!
# JSON values

The values that JSON texts stand for, with just as much detail as the reading of records needs. Of a number it matters whether it
is a natural number written as such. Of a string it matters what text it denotes; a string with an unpaired surrogate escape is
well-formed JSON but denotes none.
-/

namespace WasmBinary

/-- A number as written. -/
structure Numeral where
  /-- Whether a minus sign stands in front. -/
  negative : Bool
  /-- The digits before a fraction or an exponent, as a number. -/
  whole : Nat
  /-- Whether a fraction or an exponent follows. -/
  fractional : Bool
  deriving DecidableEq, Repr, Inhabited

namespace Numeral

/-- The plain numeral of a natural number. -/
def ofNat (n : Nat) : Numeral := ⟨false, n, false⟩

/-- The natural number that a numeral without sign, fraction and exponent stands for. -/
def toNat? (n : Numeral) : Option Nat :=
  if n.negative || n.fractional then none else some n.whole

end Numeral

/-- A JSON value; objects keep the order and the repetitions of their members. -/
inductive Json where
  | null
  | bool (value : Bool)
  | num (value : Numeral)
  /-- A string and the text it denotes; `none` if it has an unpaired surrogate escape. -/
  | str (text : Option String)
  | arr (items : List Json)
  /-- The members of an object: keys, with the text they denote, and values. -/
  | obj (members : List (Option String × Json))
  deriving Repr, Inhabited

end WasmBinary
