import Mathlib.Data.Nat.Log
import Mathlib.Tactic.Ring
import WasmBinary.Leb128

/-!
# Unsigned numbers read as signed ones

The bytes of a natural number are read by `readUnsigned` and by `readSigned` alike up to their last byte. There `readSigned` takes the
highest of the seven bits for a sign. So it gives the number back unless the highest bit of the number fills up a group of seven
(`ShowsSign`), and otherwise the number less the next power of 128. In the same case, and only then, a natural number has other bytes
as a signed number.
-/

namespace WasmBinary.Leb128

/-- The highest bit of the number is the highest of its group of seven: the number of bits is a multiple of seven. -/
def ShowsSign (n : Nat) : Prop :=
  n.log2 % 7 = 6

instance (n : Nat) : Decidable (ShowsSign n) :=
  inferInstanceAs (Decidable (n.log2 % 7 = 6))

/-- A number of at most seven bits shows a sign if it has seven. -/
theorem showsSign_of_lt {n : Nat} (h : n < 128) : ShowsSign n ↔ 64 ≤ n := by
  have hall : ∀ n < 128, n.log2 % 7 = 6 ↔ 64 ≤ n := by decide +kernel
  exact hall n h

/-- Without its lowest group a number has seven bits less. -/
theorem log2_div {n : Nat} (h : 128 ≤ n) : n.log2 = (n / 128).log2 + 7 := by
  have hlog : Nat.log 2 (n / 128) = Nat.log 2 n - 7 := Nat.log_div_base_pow 2 n 7
  have hle : 7 ≤ Nat.log 2 n := Nat.le_log_of_pow_le (by decide) h
  rw [Nat.log2_eq_log_two, Nat.log2_eq_log_two]
  omega

/-- The groups below the highest one do not matter. -/
theorem showsSign_div {n : Nat} (h : 128 ≤ n) : ShowsSign (n / 128) ↔ ShowsSign n := by
  unfold ShowsSign
  rw [log2_div h]
  omega

/-- What the bytes of a natural number are when they are read as a signed one. -/
def asSigned (n : Nat) : Int :=
  if ShowsSign n then (n : Int) - (2 ^ (n.log2 + 1) : Nat) else n

theorem asSigned_of_lt {n : Nat} (h : n < 128) : asSigned n = if n < 64 then (n : Int) else (n : Int) - 128 := by
  unfold asSigned
  by_cases hn : n < 64
  · rw [if_neg, if_pos hn]
    rw [showsSign_of_lt h]
    omega
  · have hlog : n.log2 = 6 := (Nat.log2_eq_iff (by omega)).2 ⟨by omega, by omega⟩
    rw [if_pos, if_neg hn, hlog]
    · rfl
    · exact (showsSign_of_lt h).2 (by omega)

/-- The lowest group is read the same way. -/
theorem asSigned_div {n : Nat} (h : 128 ≤ n) : asSigned n = (n : Int) % 128 + 128 * asSigned (n / 128) := by
  unfold asSigned
  by_cases hs : ShowsSign n
  · rw [if_pos hs, if_pos ((showsSign_div h).2 hs), log2_div h]
    have hpow : 2 ^ ((n / 128).log2 + 7 + 1) = 128 * 2 ^ ((n / 128).log2 + 1) := by ring
    rw [hpow]
    omega
  · rw [if_neg hs, if_neg (mt (showsSign_div h).1 hs)]
    omega

/-- The bytes of a natural number, read as a signed one. -/
theorem readSigned_unsigned (n : Nat) (rest : List UInt8) : readSigned (unsigned n ++ rest) = some (asSigned n, rest) := by
  induction n using Nat.strongRecOn with
  | ind n ih =>
    rw [unsigned]
    by_cases h : n < 128
    · have byte := toNat_toUInt8_of_lt (by omega : n < 256)
      rw [if_pos h, asSigned_of_lt h]
      simp only [List.cons_append, List.nil_append, readSigned, byte, h, if_true]
      by_cases hn : n < 64
      · rw [if_pos hn, if_pos hn]
      · rw [if_neg hn, if_neg hn]
    · have byte := toNat_toUInt8_of_lt (by omega : n % 128 + 128 < 256)
      rw [if_neg h, asSigned_div (by omega)]
      simp only [List.cons_append, readSigned, byte, ih (n / 128) (by omega)]
      rw [if_neg (by omega), if_neg (by omega)]
      simp only [Option.map_some, Option.some.injEq, Prod.mk.injEq, and_true]
      omega

/-- A natural number that shows no sign has the same bytes as an unsigned and as a signed number. -/
theorem signed_natCast {n : Nat} (h : ¬ShowsSign n) : signed n = unsigned n := by
  induction n using Nat.strongRecOn with
  | ind n ih =>
    rw [signed, unsigned]
    by_cases hn : n < 128
    · have hlt : n < 64 := by
        rw [showsSign_of_lt hn] at h
        omega
      rw [if_pos (by omega), if_pos hn]
      have hmod : ((n : Int) % 128).toNat = n := by omega
      rw [hmod]
    · have hhigh : (n : Int) / 128 = ((n / 128 : Nat) : Int) := by omega
      have hlow : ((n : Int) % 128 + 128).toNat = n % 128 + 128 := by omega
      rw [if_neg (by omega), if_neg hn, hhigh, hlow, ih (n / 128) (by omega) (mt (showsSign_div (by omega)).1 h)]

/-- A number of 32 bits that shows a sign has 28 bits at most, and is read as a negative number. -/
theorem asSigned_bounds {n : Nat} (hn : n < 0x100000000) (h : ShowsSign n) :
    n < 0x10000000 ∧ -0x10000000 ≤ asSigned n ∧ asSigned n < 0 := by
  have hne : n ≠ 0 := by
    rintro rfl
    exact absurd h (by decide)
  have hlog : n.log2 + 1 ≤ 28 := by
    have hlt : n.log2 < 32 := (Nat.log2_lt hne).2 hn
    unfold ShowsSign at h
    omega
  have hle : 2 ^ (n.log2 + 1) ≤ 2 ^ 28 := Nat.pow_le_pow_right (by decide) hlog
  have hlt : n < 2 ^ (n.log2 + 1) := Nat.lt_log2_self
  unfold asSigned
  rw [if_pos h]
  omega

/-- Bytes that are the same for a natural number and for an integer are read as that integer. -/
theorem eq_asSigned_of_unsigned_eq_signed {n : Nat} {v : Int} (h : unsigned n = signed v) : v = asSigned n := by
  have hread := readSigned_signed v []
  rw [← h, readSigned_unsigned] at hread
  exact (Prod.mk.inj (Option.some.inj hread)).1.symm

end WasmBinary.Leb128
