/-!
# LEB128 numbers

Numbers as bytes of seven bits each, lowest first, every byte but the last with its high bit set. The last byte of a signed number
carries the sign in its bit 6. The writers use as few bytes as possible; the readers take any number of bytes and also give the
bytes that follow.
-/

namespace WasmBinary.Leb128

/-- The bytes of a natural number. -/
def unsigned (n : Nat) : List UInt8 :=
  if n < 128 then [n.toUInt8] else (n % 128 + 128).toUInt8 :: unsigned (n / 128)
termination_by n
decreasing_by omega

/-- The bytes of an integer. -/
def signed (v : Int) : List UInt8 :=
  if -64 ≤ v ∧ v < 64 then [(v % 128).toNat.toUInt8] else (v % 128 + 128).toNat.toUInt8 :: signed (v / 128)
termination_by v.natAbs
decreasing_by omega

/-- The natural number at the start of some bytes, and the bytes after it; `none` when they end inside it. -/
def readUnsigned : List UInt8 → Option (Nat × List UInt8)
  | [] => none
  | b :: rest =>
    if b.toNat < 128 then some (b.toNat, rest)
    else (readUnsigned rest).map fun p => (b.toNat - 128 + 128 * p.1, p.2)

/-- The integer at the start of some bytes, and the bytes after it; `none` when they end inside it. -/
def readSigned : List UInt8 → Option (Int × List UInt8)
  | [] => none
  | b :: rest =>
    if b.toNat < 64 then some (b.toNat, rest)
    else if b.toNat < 128 then some ((b.toNat : Int) - 128, rest)
    else (readSigned rest).map fun p => ((b.toNat : Int) - 128 + 128 * p.1, p.2)

/-- A natural number has at least one byte. -/
theorem unsigned_ne_nil (n : Nat) : unsigned n ≠ [] := by
  rw [unsigned]
  split <;> exact List.cons_ne_nil _ _

/-- A number below 256 is the value of its byte. -/
theorem toNat_toUInt8_of_lt {n : Nat} (h : n < 256) : n.toUInt8.toNat = n :=
  UInt8.toNat_ofNat_of_lt' h

/-- A natural number is read back, whatever bytes follow. -/
theorem readUnsigned_unsigned (n : Nat) (rest : List UInt8) : readUnsigned (unsigned n ++ rest) = some (n, rest) := by
  induction n using Nat.strongRecOn with
  | ind n ih =>
    rw [unsigned]
    split
    · rename_i h
      simp [readUnsigned, toNat_toUInt8_of_lt (by omega : n < 256), h]
    · rename_i h
      have byte := toNat_toUInt8_of_lt (by omega : n % 128 + 128 < 256)
      simp only [List.cons_append, readUnsigned, byte, ih (n / 128) (by omega)]
      rw [if_neg (by omega)]
      simp only [Option.map_some, Option.some.injEq, Prod.mk.injEq, and_true]
      omega

/-- An integer is read back, whatever bytes follow. -/
theorem readSigned_signed (v : Int) (rest : List UInt8) : readSigned (signed v ++ rest) = some (v, rest) := by
  induction h : v.natAbs using Nat.strongRecOn generalizing v with
  | ind n ih =>
    rw [signed]
    split
    · rename_i hv
      have byte := toNat_toUInt8_of_lt (by omega : (v % 128).toNat < 256)
      simp only [List.cons_append, List.nil_append, readSigned, byte]
      split
      · simp only [Option.some.injEq, Prod.mk.injEq, and_true]
        omega
      · rw [if_pos (by omega)]
        simp only [Option.some.injEq, Prod.mk.injEq, and_true]
        omega
    · rename_i hv
      have byte := toNat_toUInt8_of_lt (by omega : (v % 128 + 128).toNat < 256)
      simp only [List.cons_append, readSigned, byte, ih (v / 128).natAbs (by omega) (v / 128) rfl]
      rw [if_neg (by omega), if_neg (by omega)]
      simp only [Option.map_some, Option.some.injEq, Prod.mk.injEq, and_true]
      omega

end WasmBinary.Leb128
