import WasmBinary.Expr.Basic
import WasmBinary.ByteWriter

/-!
# Instructions

The code of a function body is a sequence of instructions, each an opcode byte followed by its immediates. Operands are on a stack:
the instructions that leave them stand before the instruction that takes them. `block_`, `loop_` and `if_` open a level of
nesting, `end_` closes it.
-/

namespace WasmBinary

/-- One instruction, with functions and signatures given by number. -/
inductive Instr where
  | unreachable
  | nop
  | block_
  | loop_
  | if_
  | else_
  | end_
  | br (depth : UInt32)
  | brIf (depth : UInt32)
  | ret
  | drop
  | i32Const (value : Int32)
  | i64Const (value : Int64)
  | f32Const (value : F32)
  | f64Const (value : F64)
  | getLocal (index : UInt32)
  | setLocal (index : UInt32)
  | load (type : ValueType) (align offset : UInt32)
  | store (type : ValueType) (align offset : UInt32)
  | binary (op : BinaryOp)
  | call (function : UInt32)
  | callImport (function : UInt32)
  | callIndirect (type : UInt32)
  deriving DecidableEq, Repr, Inhabited

/-- The opcode of a two-operand operator. -/
def BinaryOp.opcode : BinaryOp → UInt8
  | i32Add => 0x40
  | i32Sub => 0x41
  | i32Mul => 0x42
  | i32DivS => 0x43
  | i32And => 0x47
  | i32Or => 0x48
  | i32Xor => 0x49
  | i32Eq => 0x4d
  | i32Ne => 0x4e
  | i32LtS => 0x4f
  | i32GtS => 0x53
  | i64Add => 0x5b
  | i64Sub => 0x5c
  | i64Mul => 0x5d
  | f32Add => 0x75
  | f32Sub => 0x76
  | f32Mul => 0x77
  | f32Div => 0x78
  | f64Add => 0x89
  | f64Sub => 0x8a
  | f64Mul => 0x8b
  | f64Div => 0x8c

/-- The opcode of a load. -/
def ValueType.loadOpcode : ValueType → UInt8
  | i32 => 0x2a
  | i64 => 0x2b
  | f32 => 0x2c
  | f64 => 0x2d

/-- The opcode of a store. -/
def ValueType.storeOpcode : ValueType → UInt8
  | i32 => 0x33
  | i64 => 0x34
  | f32 => 0x35
  | f64 => 0x36

/-- The alignment of a memory access, as the exponent of a power of two: the size of the value. -/
def ValueType.alignment : ValueType → UInt32
  | i32 | f32 => 2
  | i64 | f64 => 3

namespace Instr

/-- The first byte of an instruction. -/
def opcode : Instr → UInt8
  | unreachable => 0x00
  | block_ => 0x01
  | loop_ => 0x02
  | if_ => 0x03
  | else_ => 0x04
  | br _ => 0x06
  | brIf _ => 0x07
  | ret => 0x09
  | nop => 0x0a
  | drop => 0x0b
  | end_ => 0x0f
  | i32Const _ => 0x10
  | i64Const _ => 0x11
  | f64Const _ => 0x12
  | f32Const _ => 0x13
  | getLocal _ => 0x14
  | setLocal _ => 0x15
  | call _ => 0x16
  | callIndirect _ => 0x17
  | callImport _ => 0x18
  | load t _ _ => t.loadOpcode
  | store t _ _ => t.storeOpcode
  | binary op => op.opcode

/-- The bytes that follow the opcode. -/
def immediates : Instr → List UInt8
  | br n | brIf n | getLocal n | setLocal n | call n | callImport n | callIndirect n => Leb128.unsigned n.toNat
  | i32Const v => Leb128.signed v.toInt
  | i64Const v => Leb128.signed v.toInt
  | f32Const x => littleEndian32 x.bits
  | f64Const x => littleEndian64 x.bits
  | load _ align offset | store _ align offset => Leb128.unsigned align.toNat ++ Leb128.unsigned offset.toNat
  | unreachable | nop | block_ | loop_ | if_ | else_ | end_ | ret | drop | binary _ => []

/-- The bytes of an instruction. -/
def bytes (i : Instr) : List UInt8 :=
  i.opcode :: i.immediates

end Instr

end WasmBinary
