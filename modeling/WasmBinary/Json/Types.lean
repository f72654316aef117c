import WasmBinary.EncodeError
import WasmBinary.Json.Record

/-!
# Types, signatures and revisions in JSON

A value type is written as its name, a signature as a record of its result and parameters, and a revision as its number.
-/

namespace WasmBinary

instance : JsonData ValueType where
  toJson t := toJson t.name
  ofJson? j := do ValueType.ofName? (← j.choice?)

instance : JsonData Signature where
  toJson s := .ofFields [("result", some (toJson s.result)), ("params", some (toJson s.params))]
  ofJson? j := do
    match ← j.fields? ["result", "params"] with
    | [result, params] => return ⟨← Json.optional? result, ← Json.required? params⟩
    | _ => none

instance : JsonData Revision where
  toJson r := toJson r.tag
  ofJson? j := do Revision.ofTag? (← ofJson? j)

end WasmBinary
