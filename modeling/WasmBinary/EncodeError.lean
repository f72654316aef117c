import WasmBinary.Revision
import WasmBinary.Signature
import WasmBinary.Text.Quoted

/-!
# Encoding errors

Why a module cannot be rendered, or why render options are refused, with the wording of each cause in one function. Numbers that a
binary holds are 32 bits wide; `narrow` is the one place where a larger count is refused.
-/

namespace WasmBinary

/-- Why encoding failed. -/
inductive EncodeError where
  /-- A name that stands for no function where it is used. -/
  | unresolvedFunction (name : String)
  /-- A signature that is not in the catalog. -/
  | unregisteredSignature (signature : Signature)
  /-- A number that does not fit in 32 bits, and what it counts. -/
  | outOfRange (what : String) (value : Nat)
  /-- A text that should be ASCII and is not. -/
  | nonAscii (text : String)
  /-- A revision number that is not supported. -/
  | unsupportedVersion (tag : UInt32)
  /-- Options that cannot be read. -/
  | invalidOptions
  deriving DecidableEq, Repr

namespace EncodeError

/-- The wording of an error. -/
def message : EncodeError → String
  | unresolvedFunction name => "unresolved function: " ++ name
  | unregisteredSignature s => "unregistered signature: " ++ s.text
  | outOfRange what value => what ++ " out of range: " ++ Nat.repr value
  | nonAscii text => "non-ASCII string: " ++ Text.quote text
  | unsupportedVersion tag => "unsupported binary version: 0x" ++ Text.hex tag.toNat
  | invalidOptions => "invalid render options"

end EncodeError

/-- A number as a 32-bit word; `what` says what it counts, should it not fit. -/
def narrow (what : String) (value : Nat) : Except EncodeError UInt32 :=
  if value < 0x100000000 then .ok value.toUInt32 else .error (.outOfRange what value)

/-- The revision that a number stands for. -/
def Revision.ofTag (tag : UInt32) : Except EncodeError Revision :=
  match ofTag? tag with
  | some r => .ok r
  | none => .error (.unsupportedVersion tag)

/-- A computation that may fail is one of any state that leaves the state alone. -/
instance {σ : Type} : MonadLift (Except EncodeError) (EStateM EncodeError σ) where
  monadLift
    | .ok a => pure a
    | .error e => throw e

end WasmBinary
