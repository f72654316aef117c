import WasmBinary.FloatBits
import WasmBinary.Leb128
import WasmBinary.ValueType

/-!
# Reading bytes

A `ByteReader` takes what it needs from the start of some bytes and gives the rest, or refuses them. There is one for each thing
that can be written: numbers of both signs, floats, texts, types, and lists with their length in front.
-/

namespace WasmBinary

/-- A reader of values at the start of some bytes. -/
abbrev ByteReader := StateT (List UInt8) Option

namespace ByteReader

/-- Any one byte. -/
def byte : ByteReader UInt8
  | [] => none
  | b :: rest => some (b, rest)

/-- One given byte. -/
def expect (b : UInt8) : ByteReader Unit := do
  guard ((← byte) = b)

/-- A given number of bytes. -/
def take (n : Nat) : ByteReader (List UInt8) := fun bytes =>
  if n ≤ bytes.length then some (bytes.take n, bytes.drop n) else none

/-- A 32-bit word in four bytes, lowest first. -/
def word32 : ByteReader UInt32 := do
  let a ← byte
  let b ← byte
  let c ← byte
  let d ← byte
  return a.toUInt32 ||| b.toUInt32 <<< 8 ||| c.toUInt32 <<< 16 ||| d.toUInt32 <<< 24

/-- A 64-bit word in eight bytes, lowest first. -/
def word64 : ByteReader UInt64 := do
  let low ← word32
  let high ← word32
  return low.toUInt64 ||| high.toUInt64 <<< 32

/-- A number of 32 bits. -/
def leb : ByteReader UInt32 := do
  let n ← (Leb128.readUnsigned : ByteReader Nat)
  guard (n < 0x100000000)
  return n.toUInt32

/-- A signed number of 32 bits. -/
def sleb32 : ByteReader Int32 := do
  let v ← (Leb128.readSigned : ByteReader Int)
  guard (-0x80000000 ≤ v ∧ v < 0x80000000)
  return Int32.ofInt v

/-- A signed number of 64 bits. -/
def sleb64 : ByteReader Int64 := do
  let v ← (Leb128.readSigned : ByteReader Int)
  guard (-0x8000000000000000 ≤ v ∧ v < 0x8000000000000000)
  return Int64.ofInt v

/-- The bit pattern of a 32-bit float. -/
def f32 : ByteReader F32 := do
  return ⟨← word32⟩

/-- The bit pattern of a 64-bit float. -/
def f64 : ByteReader F64 := do
  return ⟨← word64⟩

/-- Bytes with their number in front. -/
def block : ByteReader (List UInt8) := do
  take (← leb).toNat

/-- An ASCII text: its length, then its characters. -/
def ascii : ByteReader String := do
  let bytes ← block
  guard (bytes.all (· < 128))
  return String.ofList (bytes.map fun b => Char.ofNat b.toNat)

/-- The tag of a value type. -/
def type : ByteReader ValueType := do
  let tag ← byte
  (ValueType.ofTag? tag : Option ValueType)

/-- A given number of items. -/
def repeated {α : Type} (item : ByteReader α) : Nat → ByteReader (List α)
  | 0 => return []
  | n + 1 => do
    let a ← item
    return a :: (← repeated item n)

/-- Items with their number in front. -/
def counted {α : Type} (item : ByteReader α) : ByteReader (List α) := do
  repeated item (← leb).toNat

/-- The value that takes up all of some bytes. -/
def whole {α : Type} (r : ByteReader α) (bytes : List UInt8) : Option α :=
  match r.run bytes with
  | some (a, []) => some a
  | _ => none

/-- The items that take up all of some bytes; each has to take up at least one byte. -/
def toEnd {α : Type} (item : ByteReader α) (bytes : List UInt8) : Option (List α) :=
  if bytes.isEmpty then some []
  else
    match item.run bytes with
    | some (a, rest) => if rest.length < bytes.length then (toEnd item rest).map (a :: ·) else none
    | none => none
termination_by bytes.length

end ByteReader

end WasmBinary
