import Mathlib.Data.Nat.Digits.Defs
import WasmBinary.Proofs.GrowingReferences

/-!
# The shortest bytes of a number

Some bytes hold one number if the high bit is set in all of them but the last (`Terminated`). The number is made of the seven low bits
of each byte (`unsignedValue`), less the next power of 128 where bit 6 of the last byte is taken for a sign (`signedValue`); this is what the
readers find (`readUnsigned_eq_some_iff`, `readSigned_eq_some_iff`). A number has bytes of any greater length, filled up with groups that
do not matter. Byte by byte, bytes that hold a number are the ones that are written for it, or there are more of them
(`eq_or_length_lt`). So each number of 32 or 64 bits is written in the only way that is the shortest.
-/

namespace WasmBinary.Leb128

/-! ## The number that bytes hold -/

/-- The high bit is set in every byte but the last. -/
structure Terminated (bytes : List UInt8) : Prop where
  /-- After every byte but the last there are more. -/
  more : ∀ b ∈ bytes.dropLast, 128 ≤ b.toNat
  /-- There is a last byte. -/
  last : ∃ b ∈ bytes.getLast?, b.toNat < 128

theorem terminated_iff {bytes : List UInt8} :
    (bytes.dropLast.all (128 ≤ ·.toNat) && bytes.getLast?.any (·.toNat < 128)) = true ↔ Terminated bytes := by
  simp only [Bool.and_eq_true, List.all_eq_true, Option.any_eq_true, decide_eq_true_eq]
  constructor
  · rintro ⟨hmore, hlast⟩
    exact ⟨hmore, hlast⟩
  · rintro ⟨hmore, hlast⟩
    exact ⟨hmore, hlast⟩

instance (bytes : List UInt8) : Decidable (Terminated bytes) :=
  decidable_of_iff _ terminated_iff

/-- The number whose digits to base 128 are the seven low bits of the bytes, lowest first. -/
def unsignedValue (bytes : List UInt8) : Nat :=
  Nat.ofDigits 128 (bytes.map fun b => b.toNat % 128)

/-- The same with bit 6 of the last byte as a sign, which stands for all bits above. -/
def signedValue (bytes : List UInt8) : Int :=
  unsignedValue bytes - if bytes.getLast?.any (64 ≤ ·.toNat) then 128 ^ bytes.length else 0

theorem not_terminated_nil : ¬Terminated [] := by
  rintro ⟨-, b, hb, -⟩
  simp at hb

theorem terminated_singleton {b : UInt8} : Terminated [b] ↔ b.toNat < 128 := by
  constructor
  · rintro ⟨-, c, hc, hlt⟩
    simp only [List.getLast?_singleton, Option.mem_some] at hc
    rwa [hc]
  · intro h
    exact ⟨by simp, b, by simp, h⟩

theorem terminated_cons_cons {b c : UInt8} {rest : List UInt8} :
    Terminated (b :: c :: rest) ↔ 128 ≤ b.toNat ∧ Terminated (c :: rest) := by
  constructor
  · rintro ⟨hmore, hlast⟩
    simp only [List.dropLast_cons_cons, List.forall_mem_cons, List.getLast?_cons_cons] at hmore hlast
    exact ⟨hmore.1, hmore.2, hlast⟩
  · rintro ⟨hb, hmore, hlast⟩
    refine ⟨?_, ?_⟩
    · simp only [List.dropLast_cons_cons, List.forall_mem_cons]
      exact ⟨hb, hmore⟩
    · simpa only [List.getLast?_cons_cons] using hlast

/-- A byte without its high bit set is the last one, and any other is followed by the rest. -/
theorem terminated_cons {b : UInt8} {rest : List UInt8} :
    Terminated (b :: rest) ↔ b.toNat < 128 ∧ rest = [] ∨ 128 ≤ b.toNat ∧ Terminated rest := by
  cases rest with
  | nil => simp [terminated_singleton, not_terminated_nil]
  | cons c rest => simp [terminated_cons_cons]

theorem unsignedValue_cons (b : UInt8) (rest : List UInt8) :
    unsignedValue (b :: rest) = b.toNat % 128 + 128 * unsignedValue rest := by
  simp [unsignedValue, Nat.ofDigits_cons]

theorem unsignedValue_singleton {b : UInt8} (h : b.toNat < 128) : unsignedValue [b] = b.toNat := by
  simp [unsignedValue, Nat.mod_eq_of_lt h]

theorem signedValue_singleton {b : UInt8} (h : b.toNat < 128) :
    signedValue [b] = if b.toNat < 64 then (b.toNat : Int) else (b.toNat : Int) - 128 := by
  unfold signedValue
  rw [unsignedValue_singleton h]
  by_cases hb : b.toNat < 64
  · simp [hb]
  · simp [hb, Nat.le_of_not_lt hb]

theorem signedValue_cons {b : UInt8} {rest : List UInt8} (hb : 128 ≤ b.toNat) (h : Terminated rest) :
    signedValue (b :: rest) = (b.toNat : Int) - 128 + 128 * signedValue rest := by
  have hlt : b.toNat < 256 := b.toNat_lt
  cases rest with
  | nil => exact absurd h not_terminated_nil
  | cons c rest =>
    unfold signedValue
    rw [unsignedValue_cons, List.getLast?_cons_cons, List.length_cons, pow_succ]
    split
    · omega
    · omega

/-! ## Reading -/

section

variable {α : Type} {value : List UInt8 → α} {read : List UInt8 → Option (α × List UInt8)} (extend : UInt8 → α → α)

/-- A reader that goes on after each byte with the high bit set, and adds the byte to what it finds there, finds the number that bytes
hold, if this is put together in the same way. -/
theorem read_eq_some_iff (hnil : read [] = none) (hlast : ∀ b rest, b.toNat < 128 → read (b :: rest) = some (value [b], rest))
    (hmore : ∀ b rest, 128 ≤ b.toNat → read (b :: rest) = (read rest).map fun p => (extend b p.1, p.2))
    (hvalue : ∀ b rest, 128 ≤ b.toNat → Terminated rest → value (b :: rest) = extend b (value rest)) {bytes : List UInt8} {v : α} :
    read bytes = some (v, []) ↔ Terminated bytes ∧ value bytes = v := by
  induction bytes generalizing v with
  | nil => simp [hnil, not_terminated_nil]
  | cons b rest ih =>
    rw [terminated_cons]
    by_cases hb : b.toNat < 128
    · have hnot : ¬128 ≤ b.toNat := by omega
      simp only [hlast b rest hb, hb, hnot, true_and, false_and, or_false, Option.some.injEq, Prod.mk.injEq]
      constructor
      · rintro ⟨rfl, rfl⟩
        exact ⟨rfl, rfl⟩
      · rintro ⟨rfl, rfl⟩
        exact ⟨rfl, rfl⟩
    · have hle : 128 ≤ b.toNat := by omega
      simp only [hmore b rest hle, hb, hle, true_and, false_and, false_or]
      constructor
      · intro h
        obtain ⟨⟨w, rest'⟩, hw, heq⟩ := Option.map_eq_some_iff.1 h
        obtain ⟨rfl, rfl⟩ := Prod.mk.inj heq
        obtain ⟨hrest, rfl⟩ := ih.1 hw
        exact ⟨hrest, hvalue b rest hle hrest⟩
      · rintro ⟨hrest, rfl⟩
        rw [ih.2 ⟨hrest, rfl⟩, hvalue b rest hle hrest]
        rfl

end

/-- Read to their end, bytes give the natural number that they hold. -/
theorem readUnsigned_eq_some_iff {bytes : List UInt8} {n : Nat} :
    readUnsigned bytes = some (n, []) ↔ Terminated bytes ∧ unsignedValue bytes = n := by
  refine read_eq_some_iff (fun b m => b.toNat - 128 + 128 * m) rfl ?_ ?_ ?_
  · intro b rest hb
    rw [readUnsigned, if_pos hb, unsignedValue_singleton hb]
  · intro b rest hb
    rw [readUnsigned, if_neg (by omega)]
  · intro b rest hb _
    have hlt : b.toNat < 256 := b.toNat_lt
    rw [unsignedValue_cons]
    omega

/-- Read to their end as a signed number, bytes give the integer that they hold. -/
theorem readSigned_eq_some_iff {bytes : List UInt8} {v : Int} :
    readSigned bytes = some (v, []) ↔ Terminated bytes ∧ signedValue bytes = v := by
  refine read_eq_some_iff (fun b w => (b.toNat : Int) - 128 + 128 * w) rfl ?_ ?_ ?_
  · intro b rest hb
    rw [readSigned, signedValue_singleton hb, if_pos hb]
    split
    · rfl
    · rfl
  · intro b rest hb
    rw [readSigned, if_neg (by omega), if_neg (by omega)]
  · intro b rest hb hrest
    exact signedValue_cons hb hrest

/-! ## The shortest bytes -/

/-- The bytes hold the number, and all other bytes that do so are longer. -/
structure Shortest {α : Type} (value : List UInt8 → α) (v : α) (bytes : List UInt8) : Prop where
  /-- They hold one number. -/
  terminated : Terminated bytes
  /-- It is the given one. -/
  value_eq : value bytes = v
  /-- There are no other bytes as short as these. -/
  length_lt : ∀ other, Terminated other → value other = v → other ≠ bytes → bytes.length < other.length

section

variable {α : Type} {value : List UInt8 → α} {write : α → List UInt8} (hlast : ∀ b, b.toNat < 128 → write (value [b]) = [b])
  (hmore : ∀ b rest, 128 ≤ b.toNat → Terminated rest →
    write (value (b :: rest)) = b :: write (value rest) ∨ (write (value (b :: rest))).length = 1)
include hlast hmore

/-- If the bytes that are written for a number are its one byte, or the lowest byte and what is written for the rest, or a single byte that
makes the rest needless, then all other bytes of the number are longer. -/
theorem eq_or_length_lt {bytes : List UInt8} (h : Terminated bytes) :
    write (value bytes) = bytes ∨ (write (value bytes)).length < bytes.length := by
  induction bytes with
  | nil => exact absurd h not_terminated_nil
  | cons b rest ih =>
    rcases terminated_cons.1 h with ⟨hb, rfl⟩ | ⟨hb, hrest⟩
    · exact .inl (hlast b hb)
    · rcases hmore b rest hb hrest with heq | hone
      · rw [heq]
        rcases ih hrest with ih | ih
        · exact .inl (by rw [ih])
        · exact .inr (Nat.succ_lt_succ ih)
      · have hne : rest ≠ [] := fun hnil => not_terminated_nil (hnil ▸ hrest)
        have hpos : 0 < rest.length := List.length_pos_iff.2 hne
        right
        rw [hone, List.length_cons]
        omega

theorem shortest_of_groups {v : α} (h : Terminated (write v) ∧ value (write v) = v) : Shortest value v (write v) := by
  refine ⟨h.1, h.2, ?_⟩
  rintro other hother rfl hne
  exact (eq_or_length_lt hlast hmore hother).resolve_left (Ne.symm hne)

end

theorem toUInt8_toNat (b : UInt8) : b.toNat.toUInt8 = b :=
  UInt8.ofNat_toNat

/-- A group below the others is written first, unless one byte is enough for all. -/
theorem unsigned_group {b : UInt8} (hb : 128 ≤ b.toNat) (m : Nat) :
    unsigned (b.toNat % 128 + 128 * m) = b :: unsigned m ∨ (unsigned (b.toNat % 128 + 128 * m)).length = 1 := by
  have hlt : b.toNat < 256 := b.toNat_lt
  rw [unsigned]
  split
  · exact .inr rfl
  · left
    have hbyte : (b.toNat % 128 + 128 * m) % 128 + 128 = b.toNat := by omega
    have hrest : (b.toNat % 128 + 128 * m) / 128 = m := by omega
    rw [hbyte, hrest, toUInt8_toNat]

/-- The same with a sign. -/
theorem signed_group {b : UInt8} (hb : 128 ≤ b.toNat) (w : Int) :
    signed ((b.toNat : Int) - 128 + 128 * w) = b :: signed w ∨ (signed ((b.toNat : Int) - 128 + 128 * w)).length = 1 := by
  have hlt : b.toNat < 256 := b.toNat_lt
  rw [signed]
  split
  · exact .inr rfl
  · left
    have hbyte : (((b.toNat : Int) - 128 + 128 * w) % 128 + 128).toNat = b.toNat := by omega
    have hrest : ((b.toNat : Int) - 128 + 128 * w) / 128 = w := by omega
    rw [hbyte, hrest, toUInt8_toNat]

theorem shortest_unsigned (n : Nat) : Shortest unsignedValue n (unsigned n) := by
  have hread := readUnsigned_unsigned n []
  rw [List.append_nil, readUnsigned_eq_some_iff] at hread
  refine shortest_of_groups ?_ ?_ hread
  · intro b hb
    rw [unsignedValue_singleton hb, unsigned, if_pos hb, toUInt8_toNat]
  · intro b rest hb _
    rw [unsignedValue_cons]
    exact unsigned_group hb _

theorem shortest_signed (v : Int) : Shortest signedValue v (signed v) := by
  have hread := readSigned_signed v []
  rw [List.append_nil, readSigned_eq_some_iff] at hread
  refine shortest_of_groups ?_ ?_ hread
  · intro b hb
    rw [signedValue_singleton hb, signed]
    split
    · have hbyte : ((b.toNat : Int) % 128).toNat = b.toNat := by omega
      rw [if_pos (by omega), hbyte, toUInt8_toNat]
    · have hbyte : (((b.toNat : Int) - 128) % 128).toNat = b.toNat := by omega
      rw [if_pos (by omega), hbyte, toUInt8_toNat]
  · intro b rest hb hrest
    rw [signedValue_cons hb hrest]
    exact signed_group hb _

/-! ## How many bytes there are -/

/-- Each byte has room for seven bits. -/
theorem length_unsigned_le {k n : Nat} (h : n < 128 ^ (k + 1)) : (unsigned n).length ≤ k + 1 := by
  induction k generalizing n with
  | zero =>
    rw [unsigned, if_pos (by omega)]
    exact le_rfl
  | succ k ih =>
    rw [unsigned]
    split
    · exact Nat.le_add_left 1 (k + 1)
    · rw [pow_succ] at h
      exact Nat.succ_le_succ (ih (by omega))

/-- Each byte has room for seven bits, one of all of them being the sign. -/
theorem length_signed_le {k : Nat} {v : Int} (hle : -(64 * 128 ^ k) ≤ v) (hlt : v < 64 * 128 ^ k) : (signed v).length ≤ k + 1 := by
  induction k generalizing v with
  | zero =>
    rw [signed, if_pos (by omega)]
    exact le_rfl
  | succ k ih =>
    rw [signed]
    split
    · exact Nat.le_add_left 1 (k + 1)
    · rw [pow_succ] at hle hlt
      exact Nat.succ_le_succ (ih (by omega) (by omega))

open WriteM in
/-- Every number of 32 bits, and every signed number of 32 or 64 bits, is written in the only way that is the shortest, of all bytes that
hold it; these are at most five, five and ten bytes. A signed number of 32 bits is written in the same way as one of 64 bits. -/
theorem numbers_shortest :
    (∀ v : UInt32, ∃ bytes, Adds (leb v) (.ok ()) bytes ∧ Shortest unsignedValue v.toNat bytes ∧ bytes.length ≤ 5) ∧
      (∀ v : Int32, ∃ bytes, Adds (sleb32 v) (.ok ()) bytes ∧ Shortest signedValue v.toInt bytes ∧ bytes.length ≤ 5) ∧
      (∀ v : Int64, ∃ bytes, Adds (sleb64 v) (.ok ()) bytes ∧ Shortest signedValue v.toInt bytes ∧ bytes.length ≤ 10) ∧
      ∀ v : Int32, sleb32 v = sleb64 v.toInt64 := by
  refine ⟨?_, ?_, ?_, ?_⟩
  · intro v
    have hlt : v.toNat < 2 ^ 32 := v.toNat_lt
    exact ⟨_, adds_raw _, shortest_unsigned _, length_unsigned_le (by omega)⟩
  · intro v
    have hle : -2 ^ 31 ≤ v.toInt := v.le_toInt
    have hlt : v.toInt < 2 ^ 31 := v.toInt_lt
    exact ⟨_, adds_raw _, shortest_signed _, length_signed_le (by omega) (by omega)⟩
  · intro v
    have hle : -2 ^ 63 ≤ v.toInt := v.le_toInt
    have hlt : v.toInt < 2 ^ 63 := v.toInt_lt
    exact ⟨_, adds_raw _, shortest_signed _, length_signed_le (by omega) (by omega)⟩
  · intro v
    unfold sleb32 sleb64
    rw [Int32.toInt_toInt64]

/-- Zero and minus one are also held by two bytes, the second of which adds nothing. -/
example :
    (Terminated [0x80, 0x00] ∧ unsignedValue [0x80, 0x00] = 0) ∧ Terminated [0xff, 0x7f] ∧ signedValue [0xff, 0x7f] = -1 := by
  decide +kernel

end WasmBinary.Leb128
