import WasmBinary.Json.Types

/-!
# Render options

How a module is to be rendered, and the two ways to read that from a JSON text. `Settings.parse` is for configuration files: a
field may be absent or `null`, and an unknown revision number is told apart from a malformed text. The `JsonData` instance reads
back what it writes: a field may be absent, but if it is there it has to be right.
-/

namespace WasmBinary

/-- How a module is rendered. -/
structure Settings where
  /-- The revision of the binary format. -/
  revision : Revision
  /-- Whether the names of functions are written. -/
  nameSection : Bool
  deriving DecidableEq, Repr

namespace Settings

/-- The later revision, with names. -/
def default : Settings := ⟨.v12, true⟩

instance : Inhabited Settings := ⟨default⟩

/-- A given revision, with names. -/
def ofRevision (r : Revision) : Settings := { default with revision := r }

/-- The names of the fields, in order. -/
def fieldNames : List String := ["version", "name_section"]

instance : JsonData Settings where
  toJson o := .ofFields [("version", some (toJson o.revision)), ("name_section", some (toJson o.nameSection))]
  ofJson? j := do
    match ← j.leadingFields? fieldNames with
    | [version, nameSection] =>
      return ⟨← Json.withDefault? default.revision version, ← Json.withDefault? default.nameSection nameSection⟩
    | _ => none

/-- The revision number and the choice about names that a JSON value gives. -/
def given? (j : Json) : Option (Option UInt32 × Option Bool) := do
  match ← j.fields? fieldNames with
  | [version, nameSection] => return (← Json.optional? version, ← Json.optional? nameSection)
  | _ => none

/-- The options that a JSON text gives; what it leaves open is as in `default`. -/
def parse (text : String) : Except EncodeError Settings :=
  match (Json.parse? text).bind given? with
  | none => .error .invalidOptions
  | some (version, nameSection) => do
    let revision ← match version with
      | some tag => Revision.ofTag tag
      | none => .ok default.revision
    return ⟨revision, nameSection.getD default.nameSection⟩

end Settings

end WasmBinary
