import WasmBinary.ByteReader
import WasmBinary.Frame.Basic

/-!
# Reading frames

A frame is read back by the rules of its revision. Its length says where it ends, so nothing of the payload is looked at, but for
the name at the start of a custom section.
-/

namespace WasmBinary

/-- One frame. -/
def Frame.read : Revision → ByteReader Frame
  | .v11 => do
    let name ← ByteReader.ascii
    return named name (← ByteReader.block)
  | .v12 => do
    let id ← ByteReader.byte
    let bytes ← ByteReader.block
    if id = customId then
      let (name, payload) ← (ByteReader.ascii.run bytes : Option (String × List UInt8))
      return custom name payload
    else
      return numbered id bytes

end WasmBinary
