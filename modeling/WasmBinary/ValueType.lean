/-!
# Value types

The four types of a local, a parameter, a result or a memory access, with the one-byte tag that stands for each in a binary and
the name by which texts call it.
-/

namespace WasmBinary

/-- The type of a value: an integer or a float of 32 or 64 bits. -/
inductive ValueType where
  | i32
  | i64
  | f32
  | f64
  deriving DecidableEq, Repr, Inhabited

namespace ValueType

/-- Every value type, in the order of the tags. -/
def all : List ValueType := [i32, i64, f32, f64]

/-- The byte that stands for the type in a binary. -/
def tag : ValueType → UInt8
  | i32 => 1
  | i64 => 2
  | f32 => 3
  | f64 => 4

/-- The type that a tag byte stands for, if it stands for one. -/
def ofTag? (tag : UInt8) : Option ValueType :=
  if tag = 1 then some i32
  else if tag = 2 then some i64
  else if tag = 3 then some f32
  else if tag = 4 then some f64
  else none

/-- The name of the type in texts. -/
def name : ValueType → String
  | i32 => "i32"
  | i64 => "i64"
  | f32 => "f32"
  | f64 => "f64"

/-- The type of a given name, if there is one. -/
def ofName? (name : String) : Option ValueType :=
  all.find? (·.name = name)

/-- A tag is read back as the type it was written for. -/
@[simp] theorem ofTag?_tag (t : ValueType) : ofTag? t.tag = some t := by
  cases t <;> decide

/-- A name is read back as the type it was written for. -/
@[simp] theorem ofName?_name (t : ValueType) : ofName? t.name = some t := by
  cases t <;> decide

end ValueType

end WasmBinary
