import WasmBinary.ByteReader
import WasmBinary.Instruction.Basic

/-!
# Reading instructions

One instruction at a time is read back from its bytes: the opcode says which immediates follow. Nothing is looked at beyond them,
so a constant whose bytes look like opcodes does no harm.
-/

namespace WasmBinary

/-- The two-operand operator of an opcode. -/
def BinaryOp.ofOpcode? (opcode : UInt8) : Option BinaryOp :=
  all.find? (·.opcode = opcode)

/-- The type that an opcode loads. -/
def ValueType.ofLoadOpcode? (opcode : UInt8) : Option ValueType :=
  all.find? (·.loadOpcode = opcode)

/-- The type that an opcode stores. -/
def ValueType.ofStoreOpcode? (opcode : UInt8) : Option ValueType :=
  all.find? (·.storeOpcode = opcode)

namespace Instr

/-- The operators, loads and stores, whose opcodes are in tables. -/
def readTabled (opcode : UInt8) : ByteReader Instr :=
  match BinaryOp.ofOpcode? opcode, ValueType.ofLoadOpcode? opcode, ValueType.ofStoreOpcode? opcode with
  | some op, _, _ => return binary op
  | none, some t, _ => return load t (← ByteReader.leb) (← ByteReader.leb)
  | none, none, some t => return store t (← ByteReader.leb) (← ByteReader.leb)
  | none, none, none => failure

/-- The immediates of an instruction, by its opcode. -/
def readImmediates (opcode : UInt8) : ByteReader Instr :=
  if opcode = 0x00 then return unreachable
  else if opcode = 0x01 then return block_
  else if opcode = 0x02 then return loop_
  else if opcode = 0x03 then return if_
  else if opcode = 0x04 then return else_
  else if opcode = 0x06 then return br (← ByteReader.leb)
  else if opcode = 0x07 then return brIf (← ByteReader.leb)
  else if opcode = 0x09 then return ret
  else if opcode = 0x0a then return nop
  else if opcode = 0x0b then return drop
  else if opcode = 0x0f then return end_
  else if opcode = 0x10 then return i32Const (← ByteReader.sleb32)
  else if opcode = 0x11 then return i64Const (← ByteReader.sleb64)
  else if opcode = 0x12 then return f64Const (← ByteReader.f64)
  else if opcode = 0x13 then return f32Const (← ByteReader.f32)
  else if opcode = 0x14 then return getLocal (← ByteReader.leb)
  else if opcode = 0x15 then return setLocal (← ByteReader.leb)
  else if opcode = 0x16 then return call (← ByteReader.leb)
  else if opcode = 0x17 then return callIndirect (← ByteReader.leb)
  else if opcode = 0x18 then return callImport (← ByteReader.leb)
  else readTabled opcode

/-- One instruction. -/
def read : ByteReader Instr := do
  readImmediates (← ByteReader.byte)

end Instr

end WasmBinary
