import WasmBinary.ByteWriter

/-!
# Section frames

How a section's payload is set off from its neighbours. Under revision 0xB a frame gives the name of the section, the length of the
payload and the payload. Under revision 0xC it gives the number of the section, the length and the payload; a custom section,
number 0, also gives its name, inside the counted bytes.
-/

namespace WasmBinary

/-- The number of a custom section. -/
def customId : UInt8 := 0

/-- What the frame of a section says about it, and its payload. -/
inductive Frame where
  /-- A section of revision 0xB, with its name. -/
  | named (name : String) (payload : List UInt8)
  /-- A section of revision 0xC, with its number. -/
  | numbered (id : UInt8) (payload : List UInt8)
  /-- A custom section of revision 0xC, with its name. -/
  | custom (name : String) (payload : List UInt8)
  deriving DecidableEq, Repr

namespace Frame

/-- The frame of a section of given number, name and payload. -/
def of (r : Revision) (id : UInt8) (name : String) (payload : List UInt8) : Frame :=
  match r with
  | .v11 => named name payload
  | .v12 => if id = customId then custom name payload else numbered id payload

/-- The bytes of the section itself. -/
def payload : Frame → List UInt8
  | named _ bytes | numbered _ bytes | custom _ bytes => bytes

/-- Writes a framed section. -/
def write : Frame → WriteM Unit
  | named name payload => do
    WriteM.ascii name
    WriteM.len payload.length
    WriteM.raw payload
  | numbered id payload => do
    WriteM.byte id
    WriteM.len payload.length
    WriteM.raw payload
  | custom name payload => do
    let title ← (WriteM.ascii name).toBytes
    WriteM.byte customId
    WriteM.len (payload.length + title.length)
    WriteM.raw title
    WriteM.raw payload

end Frame

end WasmBinary
