import WasmBinary.EncodeError
import WasmBinary.FloatBits
import WasmBinary.Leb128

/-!
# Writing bytes

`WriteM` is a computation that adds bytes at the end of a buffer and may fail. What a failing computation added before it failed
stays in the buffer; a single step that fails adds nothing.
-/

namespace WasmBinary

/-- The bytes written so far. -/
abbrev Buffer := Array UInt8

/-- A computation that writes to a buffer and may fail. -/
abbrev WriteM := EStateM EncodeError Buffer

/-- The four bytes of a 32-bit word, lowest first. -/
def littleEndian32 (v : UInt32) : List UInt8 :=
  [v.toUInt8, (v >>> 8).toUInt8, (v >>> 16).toUInt8, (v >>> 24).toUInt8]

/-- The eight bytes of a 64-bit word, lowest first. -/
def littleEndian64 (v : UInt64) : List UInt8 :=
  littleEndian32 v.toUInt32 ++ littleEndian32 (v >>> 32).toUInt32

/-- Whether a text has only ASCII characters. -/
def isAscii (s : String) : Bool :=
  s.toList.all fun c => c.toNat < 128

/-- The bytes of an ASCII text, one for each character. -/
def asciiBytes (s : String) : List UInt8 :=
  s.toList.map fun c => c.toNat.toUInt8

namespace WriteM

/-- Writes the given bytes. -/
def raw (bytes : List UInt8) : WriteM Unit :=
  modify fun buffer : Buffer => buffer ++ bytes

/-- Writes one byte. -/
def byte (b : UInt8) : WriteM Unit :=
  modify fun buffer : Buffer => buffer.push b

/-- Writes a 32-bit word in four bytes, lowest first. -/
def word32 (v : UInt32) : WriteM Unit :=
  raw (littleEndian32 v)

/-- Writes a 32-bit number in as few bytes as possible. -/
def leb (v : UInt32) : WriteM Unit :=
  raw (Leb128.unsigned v.toNat)

/-- Writes a length, which has to fit in 32 bits. -/
def len (n : Nat) : WriteM Unit := do
  leb (← narrow "length" n)

/-- Writes a signed 32-bit number in as few bytes as possible. -/
def sleb32 (v : Int32) : WriteM Unit :=
  raw (Leb128.signed v.toInt)

/-- Writes a signed 64-bit number in as few bytes as possible. -/
def sleb64 (v : Int64) : WriteM Unit :=
  raw (Leb128.signed v.toInt)

/-- Writes the bit pattern of a 32-bit float, lowest byte first. -/
def f32 (x : F32) : WriteM Unit :=
  raw (littleEndian32 x.bits)

/-- Writes the bit pattern of a 64-bit float, lowest byte first. -/
def f64 (x : F64) : WriteM Unit :=
  raw (littleEndian64 x.bits)

/-- Writes an ASCII text: its length, then its characters. -/
def ascii (s : String) : WriteM Unit := do
  if isAscii s then
    leb (← narrow "string length" s.length)
    raw (asciiBytes s)
  else
    throw (.nonAscii s)

/-- Writes the tag of a value type. -/
def type (t : ValueType) : WriteM Unit :=
  byte t.tag

/-- Writes how many items there are, then the items. -/
def counted {α : Type} (item : α → WriteM Unit) (items : List α) : WriteM Unit := do
  len items.length
  items.forM item

/-- Writes bytes in pieces of at most `size`; all at once if `size` is zero. -/
def chunked (size : Nat) (bytes : List UInt8) : WriteM Unit :=
  if bytes.length ≤ size ∨ size = 0 then raw bytes
  else do
    raw (bytes.take size)
    chunked size (bytes.drop size)
termination_by bytes.length
decreasing_by simp only [List.length_drop]; omega

/-- What a computation writes to an empty buffer, if it does not fail. -/
def toBytes (w : WriteM Unit) : Except EncodeError (List UInt8) :=
  match w.run #[] with
  | .ok _ buffer => .ok buffer.toList
  | .error e _ => .error e

/-! ## What the steps do to a buffer -/

@[simp] theorem run_raw (bytes : List UInt8) (b : Buffer) : (raw bytes).run b = .ok () (b ++ bytes) := rfl

@[simp] theorem run_byte (v : UInt8) (b : Buffer) : (byte v).run b = .ok () (b.push v) := rfl

@[simp] theorem run_leb (v : UInt32) (b : Buffer) : (leb v).run b = .ok () (b ++ Leb128.unsigned v.toNat) := rfl

/-- A length below 2^32 is written as a number. -/
theorem run_len_of_lt {n : Nat} (h : n < 0x100000000) (b : Buffer) : (len n).run b = .ok () (b ++ Leb128.unsigned n) := by
  have hn : n.toUInt32.toNat = n := UInt32.toNat_ofNat_of_lt' h
  simp only [len, narrow, h, if_true]
  show (leb n.toUInt32).run b = _
  rw [run_leb, hn]

/-- A length of 2^32 or more is refused, and nothing is written. -/
theorem run_len_of_le {n : Nat} (h : 0x100000000 ≤ n) (b : Buffer) : (len n).run b = .error (.outOfRange "length" n) b := by
  simp only [len, narrow, Nat.not_lt.mpr h, if_false]
  rfl

/-- A text that is not ASCII is refused, and nothing is written. -/
theorem run_ascii_of_not_ascii {s : String} (h : isAscii s = false) (b : Buffer) :
    (ascii s).run b = .error (.nonAscii s) b := by
  simp only [ascii, h]
  rfl

/-- Writing in pieces of any size writes the bytes. -/
theorem run_chunked (size : Nat) (bytes : List UInt8) (b : Buffer) : (chunked size bytes).run b = .ok () (b ++ bytes) := by
  induction h : bytes.length using Nat.strongRecOn generalizing bytes b with
  | ind n ih =>
    rw [chunked]
    split
    · rfl
    · rename_i hs
      show (chunked size (bytes.drop size)).run (b ++ bytes.take size) = _
      rw [ih (bytes.drop size).length (by simp only [List.length_drop]; omega) _ _ rfl]
      refine congrArg _ (Array.toList_inj.mp ?_)
      simp

end WriteM

end WasmBinary
