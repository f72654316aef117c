import WasmBinary.Json.Printer
import WasmBinary.Json.Parser

/-!
# Records in JSON

A record is written as an object with a member for each field, and may also be given as an array of its fields in order. In an
object, members that are no fields are passed over, no field may come twice, and every key has to denote a text. A choice without
contents is written as its name, and may also be given as an object whose one member has that name and the value `null`.
-/

namespace WasmBinary

/-- The values of a type that are written as JSON. -/
class JsonData (α : Type) where
  /-- How a value is written. -/
  toJson : α → Json
  /-- The value that is written so, if there is one. -/
  ofJson? : Json → Option α

export JsonData (toJson ofJson?)

namespace Json

/-- The compact JSON text of a value. -/
def write {α : Type} [JsonData α] (a : α) : String :=
  (toJson a).print

/-- The value that a JSON text stands for. -/
def read? {α : Type} [JsonData α] (text : String) : Option α := do
  ofJson? (← parse? text)

/-- The field of a given name among the members of an object: absent, present, or refused if it comes twice. -/
def field? (members : List (String × Json)) (name : String) : Option (Option Json) :=
  match members.filter fun m => m.1 = name with
  | [] => some none
  | [m] => some (some m.2)
  | _ => none

/-- The fields of given names in an object. -/
def objectFields? (names : List String) (members : List (Option String × Json)) : Option (List (Option Json)) := do
  let members ← members.mapM fun m => m.1.map (·, m.2)
  names.mapM (field? members)

/-- The fields of given names in a record, as an object or as an array of all of them. -/
def fields? (names : List String) : Json → Option (List (Option Json))
  | obj members => objectFields? names members
  | arr items => if items.length = names.length then some (items.map some) else none
  | _ => none

/-- The fields of given names in a record that may leave out any of them: as an array, the last ones. -/
def leadingFields? (names : List String) : Json → Option (List (Option Json))
  | obj members => objectFields? names members
  | arr items =>
    if items.length ≤ names.length then
      some (items.map some ++ List.replicate (names.length - items.length) none)
    else none
  | _ => none

/-- The name of a choice without contents. -/
def choice? : Json → Option String
  | str text => text
  | obj [(key, null)] => key
  | _ => none

/-- An object without the fields that are absent. -/
def ofFields (fields : List (String × Option Json)) : Json :=
  obj (fields.filterMap fun f => f.2.map (some f.1, ·))

end Json

instance : JsonData Bool where
  toJson := .bool
  ofJson?
    | .bool b => some b
    | _ => none

instance : JsonData String where
  toJson s := .str (some s)
  ofJson?
    | .str text => text
    | _ => none

instance : JsonData UInt32 where
  toJson n := .num (.ofNat n.toNat)
  ofJson?
    | .num n => do
      let n ← n.toNat?
      if n < 0x100000000 then some n.toUInt32 else none
    | _ => none

instance {α : Type} [JsonData α] : JsonData (List α) where
  toJson as := .arr (as.map toJson)
  ofJson?
    | .arr items => items.mapM ofJson?
    | _ => none

/-- A value that may be missing is `null` if it is. -/
instance {α : Type} [JsonData α] : JsonData (Option α) where
  toJson
    | some a => toJson a
    | none => .null
  ofJson?
    | .null => some none
    | j => (ofJson? j).map some

namespace Json

/-- The value of a field that has to be present. -/
def required? {α : Type} [JsonData α] (field : Option Json) : Option α :=
  field.bind ofJson?

/-- The value of a field that may be absent or `null`. -/
def optional? {α : Type} [JsonData α] (field : Option Json) : Option (Option α) :=
  match field with
  | some j => ofJson? j
  | none => some none

/-- The value of a field that may be absent, but not `null`. -/
def withDefault? {α : Type} [JsonData α] (default : α) (field : Option Json) : Option α :=
  match field with
  | some j => ofJson? j
  | none => some default

end Json

end WasmBinary
