import Mathlib.Data.List.Basic
import WasmBinary.Json.Parser
import WasmBinary.Json.Printer

/-!
# Printed JSON is parsed back

Each part of the printer has its reader. A character of a string is one piece, which denotes it (`exists_piece`), and so a string is read to
its closing quote (`exists_stringChars`). The digits of a number are read up to the first character that cannot be more of it
(`numeral_numeralChars`). A value starts with a character that no closing bracket and no blank could be taken for, and is read to its end, whatever
comes after it that is not more of a number (`value_chars`). As many calls in a row as there are characters are enough for that, so
the text of every value is parsed back (`parse?_print`).
-/

namespace WasmBinary.Json

/-! ## Strings -/

theorem hexUnit?_control {n : Nat} (h : n < 0x20) : hexUnit? '0' '0' (hexChar (n / 16)) (hexChar (n % 16)) = some n := by
  have hall : ∀ n < 0x20, hexUnit? '0' '0' (hexChar (n / 16)) (hexChar (n % 16)) = some n := by decide
  exact hall n h

theorem pieces_unit {a b c d : Char} {u : Nat} (h : hexUnit? a b c d = some u) (s : List Char) :
    pieces ('\\' :: 'u' :: a :: b :: c :: d :: s) = (pieces s).map fun p => (.unit u :: p.1, p.2) := by
  rw [pieces, h]
  cases pieces s <;> rfl

theorem pieces_short {e c : Char} (h : shortEscape? e = some c) (he : e ≠ 'u') (s : List Char) :
    pieces ('\\' :: e :: s) = (pieces s).map fun p => (.char c :: p.1, p.2) := by
  rw [pieces, h]
  · cases pieces s <;> rfl
  · intro a b c d rest hu
    exact absurd hu he

theorem pieces_plain {c : Char} (hquote : c ≠ '"') (hslash : c ≠ '\\') (hcontrol : ¬c.toNat < 0x20) (s : List Char) :
    pieces (c :: s) = (pieces s).map fun p => (.char c :: p.1, p.2) := by
  rw [pieces, if_neg hcontrol]
  · cases pieces s <;> rfl
  · exact fun h => absurd h hquote
  · exact fun a b c d rest h => absurd h hslash
  · exact fun e rest h => absurd h hslash

/-- A unit below the halves of pairs denotes a character by itself. -/
theorem denoted_unit_of_lt {u : Nat} (h : u < 0xd800) (ps : List Piece) : denoted (.unit u :: ps) = (denoted ps).map (Char.ofNat u :: ·) := by
  have htrailing : isTrailing u = false := by simp [isTrailing]; omega
  have hleading : isLeading u = false := by simp [isLeading]; omega
  rw [denoted.eq_def]
  simp only [htrailing, hleading, Bool.false_eq_true, if_false]

/-- The characters that have a short escape, each with the letter that stands for it. -/
def shortForms : List (Char × Char) :=
  [('"', '"'), ('\\', '\\'), ('\x08', 'b'), ('\t', 't'), ('\n', 'n'), ('\x0c', 'f'), ('\r', 'r')]

theorem escapeChar_of_mem_shortForms :
    ∀ p ∈ shortForms, shortEscape? p.2 = some p.1 ∧ p.2 ≠ 'u' ∧ escapeChar p.1 = ['\\', p.2] := by
  decide

/-- A character is written by a short escape, or in hexadecimal, or plainly. -/
theorem escapeChar_cases (c : Char) :
    (∃ e, shortEscape? e = some c ∧ e ≠ 'u' ∧ escapeChar c = ['\\', e]) ∨
      (c.toNat < 0x20 ∧ escapeChar c = ['\\', 'u', '0', '0', hexChar (c.toNat / 16), hexChar (c.toNat % 16)]) ∨
      (c ≠ '"' ∧ c ≠ '\\' ∧ ¬c.toNat < 0x20 ∧ escapeChar c = [c]) := by
  by_cases hshort : ∃ p ∈ shortForms, p.1 = c
  · obtain ⟨p, hp, rfl⟩ := hshort
    exact .inl ⟨p.2, escapeChar_of_mem_shortForms p hp⟩
  · simp only [shortForms, List.exists_mem_cons_iff, List.not_mem_nil, false_and, exists_false, or_false, not_or, eq_comm] at hshort
    obtain ⟨hquote, hslash, hb, ht, hn, hf, hr⟩ := hshort
    right
    unfold escapeChar
    rw [if_neg hquote, if_neg hslash, if_neg hb, if_neg ht, if_neg hn, if_neg hf, if_neg hr]
    by_cases hcontrol : c.toNat < 0x20
    · exact .inl ⟨hcontrol, if_pos hcontrol⟩
    · exact .inr ⟨hquote, hslash, hcontrol, if_neg hcontrol⟩

/-- What is written for a character is read as one piece, which denotes the character. -/
theorem exists_piece (c : Char) :
    ∃ p, (∀ s, pieces (escapeChar c ++ s) = (pieces s).map fun q => (p :: q.1, q.2)) ∧
      ∀ ps, denoted (p :: ps) = (denoted ps).map (c :: ·) := by
  rcases escapeChar_cases c with ⟨e, he, hu, hc⟩ | ⟨hlt, hc⟩ | ⟨hquote, hslash, hcontrol, hc⟩
  · rw [hc]
    exact ⟨.char c, pieces_short he hu, fun ps => rfl⟩
  · rw [hc]
    refine ⟨.unit c.toNat, pieces_unit (hexUnit?_control hlt), ?_⟩
    intro ps
    rw [denoted_unit_of_lt (by omega), Char.ofNat_toNat]
  · rw [hc]
    exact ⟨.char c, pieces_plain hquote hslash hcontrol, fun ps => rfl⟩

/-- The pieces of a text are read up to the closing quote. -/
theorem exists_pieces (cs rest : List Char) :
    ∃ ps, pieces (cs.flatMap escapeChar ++ '"' :: rest) = some (ps, rest) ∧ denoted ps = some cs := by
  induction cs with
  | nil => exact ⟨[], by simp [pieces], rfl⟩
  | cons c cs ih =>
    obtain ⟨ps, hps, hcs⟩ := ih
    obtain ⟨p, hp, hc⟩ := exists_piece c
    refine ⟨p :: ps, ?_, ?_⟩
    · rw [List.flatMap_cons, List.append_assoc, hp, hps]
      rfl
    · rw [hc, hcs]
      rfl

/-- A string is a quote, and then what its text is read from. -/
theorem exists_stringChars (text : Option String) :
    ∃ s, stringChars text = '"' :: s ∧ ∀ rest, stringTail (s ++ rest) = some (text, rest) := by
  cases text with
  | none => exact ⟨_, rfl, fun rest => rfl⟩
  | some t =>
    refine ⟨_, rfl, ?_⟩
    intro rest
    obtain ⟨ps, hps, ht⟩ := exists_pieces t.toList rest
    rw [List.append_assoc, List.singleton_append, stringTail, hps]
    simp [ht]

/-! ## Numbers -/

/-- Nothing at the start of the text could be more of a number. -/
def EndsNumber (s : List Char) : Prop :=
  ∀ c ∈ s.head?, c.isDigit = false ∧ c ≠ '.' ∧ c ≠ 'e' ∧ c ≠ 'E'

theorem digits_append {ds rest : List Char} (hne : ds ≠ []) (hds : ∀ d ∈ ds, d.isDigit = true)
    (hrest : ∀ c ∈ rest.head?, c.isDigit = false) : digits (ds ++ rest) = some (ds, rest) := by
  have htake : rest.takeWhile Char.isDigit = [] := by
    cases rest with
    | nil => rfl
    | cons c rest => simp [hrest c (by simp)]
  have hdrop : rest.dropWhile Char.isDigit = rest := by
    cases rest with
    | nil => rfl
    | cons c rest => simp [hrest c (by simp)]
  unfold digits
  rw [List.takeWhile_append_of_pos hds, List.dropWhile_append_of_pos hds, htake, hdrop, List.append_nil]
  simp [hne]

theorem isDigit_of_mem_toDigits {n : Nat} {c : Char} (h : c ∈ Nat.toDigits 10 n) : c.isDigit = true :=
  Nat.isDigit_of_mem_toDigits (by decide) (by decide) h

/-- No number but zero has a zero for its first digit. -/
theorem head?_toDigits_ne {n : Nat} (h : 0 < n) : (Nat.toDigits 10 n).head? ≠ some '0' := by
  induction n using Nat.strongRecOn with
  | ind n ih =>
    rw [Nat.toDigits_eq_if (by decide)]
    split
    · simp only [List.head?_cons, ne_eq, Option.some.injEq, Nat.digitChar_eq_zero]
      omega
    · rw [List.head?_append_of_ne_nil _ Nat.toDigits_ne_nil]
      exact ih (n / 10) (by omega) (by omega)

theorem isWhole_toDigits (n : Nat) : isWhole (Nat.toDigits 10 n) = true := by
  rcases Nat.eq_zero_or_pos n with rfl | hn
  · rfl
  · unfold isWhole
    split
    · rename_i h
      exact absurd (by rw [h]; rfl) (head?_toDigits_ne hn)
    · rfl

theorem digitsValue_toDigits (n : Nat) : digitsValue (Nat.toDigits 10 n) = n := by
  have h := @Nat.ofDigitChars_ten_toDigits n
  rwa [Nat.ofDigitChars_eq_foldl] at h

theorem fraction_of_ne {s : List Char} (h : ∀ c ∈ s.head?, c ≠ '.') : fraction s = some (false, s) := by
  unfold fraction
  split
  · exact absurd rfl (h '.' (by simp))
  · rfl

theorem exponent_of_ne {s : List Char} (h : ∀ c ∈ s.head?, c ≠ 'e' ∧ c ≠ 'E') : exponent s = some (false, s) := by
  unfold exponent
  split
  · exact absurd rfl (h 'e' (by simp)).1
  · exact absurd rfl (h 'E' (by simp)).2
  · rfl

/-- A number is read up to where it ends. -/
theorem unsignedNumeral_toDigits (negative fractional : Bool) (n : Nat) {rest : List Char} (h : EndsNumber rest) :
    unsignedNumeral negative (Nat.toDigits 10 n ++ ((if fractional then ['e', '0'] else []) ++ rest)) =
      some (⟨negative, n, fractional⟩, rest) := by
  have hdigits : ∀ c ∈ Nat.toDigits 10 n, c.isDigit = true := fun c => isDigit_of_mem_toDigits
  unfold unsignedNumeral
  cases fractional with
  | false =>
    have hrest : digits (Nat.toDigits 10 n ++ rest) = some (Nat.toDigits 10 n, rest) :=
      digits_append Nat.toDigits_ne_nil hdigits fun c hc => (h c hc).1
    have hfraction : fraction rest = some (false, rest) := fraction_of_ne fun c hc => (h c hc).2.1
    have hexponent : exponent rest = some (false, rest) := exponent_of_ne fun c hc => (h c hc).2.2
    simp [hrest, isWhole_toDigits, digitsValue_toDigits, hfraction, hexponent]
  | true =>
    have hrest : digits (Nat.toDigits 10 n ++ 'e' :: '0' :: rest) = some (Nat.toDigits 10 n, 'e' :: '0' :: rest) :=
      digits_append Nat.toDigits_ne_nil hdigits (by simp)
    have hexponent : exponent ('e' :: '0' :: rest) = some (true, rest) := by
      have hzero : digits (['0'] ++ rest) = some (['0'], rest) :=
        digits_append (by simp) (by simp) fun c hc => (h c hc).1
      simp only [List.singleton_append] at hzero
      simp [exponent, skipSign, hzero]
    simp [hrest, isWhole_toDigits, digitsValue_toDigits, fraction, hexponent]

theorem exists_toDigits (n : Nat) : ∃ d ds, Nat.toDigits 10 n = d :: ds ∧ d.isDigit = true := by
  obtain ⟨d, ds, h⟩ := List.exists_cons_of_ne_nil (@Nat.toDigits_ne_nil n 10)
  exact ⟨d, ds, h, isDigit_of_mem_toDigits (by rw [h]; exact List.mem_cons_self)⟩

theorem numeral_numeralChars (n : Numeral) {rest : List Char} (h : EndsNumber rest) :
    numeral (numeralChars n ++ rest) = some (n, rest) := by
  obtain ⟨negative, whole, fractional⟩ := n
  have hread := unsignedNumeral_toDigits negative fractional whole h
  unfold numeralChars
  cases negative with
  | true => simpa [numeral] using hread
  | false =>
    obtain ⟨d, ds, hds, hd⟩ := exists_toDigits whole
    have hminus : d ≠ '-' := by
      rintro rfl
      exact absurd hd (by decide)
    simp only [Bool.false_eq_true, if_false, List.nil_append, List.append_assoc]
    rw [hds, List.cons_append] at hread ⊢
    rw [numeral, hread]
    exact fun _ heq => hminus (List.head_eq_of_cons_eq heq)

/-- A number starts with a minus sign or a digit. -/
theorem exists_numeralChars (n : Numeral) : ∃ c s, numeralChars n = c :: s ∧ (c = '-' ∨ c.isDigit = true) := by
  obtain ⟨negative, whole, fractional⟩ := n
  unfold numeralChars
  cases negative with
  | true => exact ⟨_, _, rfl, .inl rfl⟩
  | false =>
    obtain ⟨d, ds, hds, hd⟩ := exists_toDigits whole
    rw [hds]
    exact ⟨d, _, rfl, .inr hd⟩

/-- So a number starts with no character of which this is not known. -/
theorem ne_of_startsNumber {c d : Char} (hc : c = '-' ∨ c.isDigit = true) (hd : ¬(d = '-' ∨ d.isDigit = true)) : c ≠ d := by
  rintro rfl
  exact hd hc

/-! ## Values -/

theorem skipBlank_cons {c : Char} (h : isBlank c = false) (s : List Char) : skipBlank (c :: s) = c :: s := by
  simp [skipBlank, h]

theorem isBlank_of_startsNumber {c : Char} (h : c = '-' ∨ c.isDigit = true) : isBlank c = false := by
  have hspace : c ≠ ' ' := ne_of_startsNumber h (by decide)
  have htab : c ≠ '\t' := ne_of_startsNumber h (by decide)
  have hline : c ≠ '\n' := ne_of_startsNumber h (by decide)
  have hreturn : c ≠ '\r' := ne_of_startsNumber h (by decide)
  simp [isBlank, hspace, htab, hline, hreturn]

/-- No other value starts as a number does. -/
theorem value_numeral {c : Char} (h : c = '-' ∨ c.isDigit = true) (fuel : Nat) (s : List Char) :
    value (fuel + 1) (c :: s) = (numeral (c :: s)).map fun p => (num p.1, p.2) := by
  rw [value, skipBlank_cons (isBlank_of_startsNumber h)]
  split
  case h_7 => rfl
  all_goals
    rename_i heq
    exact absurd (List.head_eq_of_cons_eq heq) (ne_of_startsNumber h (by decide))

theorem value_quote (fuel : Nat) (s : List Char) : value (fuel + 1) ('"' :: s) = (stringTail s).map fun p => (str p.1, p.2) := rfl

theorem itemsTail_comma (fuel : Nat) (s : List Char) :
    itemsTail (fuel + 1) (',' :: s) = (do
      let (v, rest) ← value fuel s
      let (vs, rest) ← itemsTail fuel rest
      return (v :: vs, rest)) := rfl

theorem membersTail_comma (fuel : Nat) (s : List Char) :
    membersTail (fuel + 1) (',' :: s) = (do
      let (m, rest) ← member fuel s
      let (ms, rest) ← membersTail fuel rest
      return (m :: ms, rest)) := rfl

/-- An array with a first item is read item by item. -/
theorem value_items {c : Char} (hblank : isBlank c = false) (hclose : c ≠ ']') (fuel : Nat) (s : List Char) :
    value (fuel + 1) ('[' :: c :: s) = (do
      let (v, rest) ← value fuel (c :: s)
      let (vs, rest) ← itemsTail fuel rest
      return (arr (v :: vs), rest)) := by
  rw [value, skipBlank_cons (by decide)]
  simp only [skipBlank_cons hblank]
  split
  · rename_i heq
    exact absurd (List.head_eq_of_cons_eq heq) hclose
  · rfl

/-- A value starts with a character that is no blank and closes no array. -/
theorem exists_chars (j : Json) : ∃ c s, chars j = c :: s ∧ isBlank c = false ∧ c ≠ ']' := by
  cases j with
  | null => exact ⟨_, _, rfl, by decide, by decide⟩
  | bool b => cases b <;> exact ⟨_, _, rfl, by decide, by decide⟩
  | num n =>
    obtain ⟨c, s, hn, hc⟩ := exists_numeralChars n
    exact ⟨c, s, hn, isBlank_of_startsNumber hc, ne_of_startsNumber hc (by decide)⟩
  | str text =>
    obtain ⟨s, hs, -⟩ := exists_stringChars text
    exact ⟨'"', s, hs, by decide, by decide⟩
  | arr items => cases items <;> exact ⟨_, _, rfl, by decide, by decide⟩
  | obj members => cases members <;> exact ⟨_, _, rfl, by decide, by decide⟩

theorem endsNumber_itemChars (vs : List Json) (rest : List Char) : EndsNumber (itemChars vs ++ rest) := by
  cases vs <;> simp [itemChars, EndsNumber]

theorem endsNumber_memberChars (ms : List (Option String × Json)) (rest : List Char) : EndsNumber (memberChars ms ++ rest) := by
  cases ms <;> simp [memberChars, EndsNumber]

/-- A member is read if its value is. -/
theorem member_chars (k : Option String) {v : Json} {fuel : Nat} {rest : List Char} (hfuel : (chars v).length < fuel)
    (h : ∀ n, (chars v).length ≤ n → value n (chars v ++ rest) = some (v, rest)) :
    member fuel (stringChars k ++ ':' :: (chars v ++ rest)) = some ((k, v), rest) := by
  obtain ⟨n, rfl⟩ := Nat.exists_eq_add_one_of_ne_zero (Nat.ne_zero_of_lt hfuel)
  obtain ⟨s, hs, hk⟩ := exists_stringChars k
  rw [hs, List.cons_append, member, skipBlank_cons (by decide)]
  simp [hk, skipBlank_cons (show isBlank ':' = false from rfl), h n (by omega)]

/-- An object with a first member is read member by member. -/
theorem value_members (k : Option String) (fuel : Nat) (s : List Char) :
    value (fuel + 1) ('\x7b' :: (stringChars k ++ s)) = (do
      let (m, rest) ← member fuel (stringChars k ++ s)
      let (ms, rest) ← membersTail fuel rest
      return (obj (m :: ms), rest)) := by
  obtain ⟨t, ht, -⟩ := exists_stringChars k
  rw [ht]
  rfl

mutual

/-- A value is read to its end, with no more calls in a row than there are characters. -/
theorem value_chars (j : Json) {fuel : Nat} {rest : List Char} (hfuel : (chars j).length ≤ fuel) (hrest : EndsNumber rest) :
    value fuel (chars j ++ rest) = some (j, rest) := by
  obtain ⟨fuel, rfl⟩ : ∃ n, fuel = n + 1 := by
    obtain ⟨c, s, hs, -⟩ := exists_chars j
    rw [hs, List.length_cons] at hfuel
    exact Nat.exists_eq_add_of_le' (by omega)
  match j with
  | null => rfl
  | bool true => rfl
  | bool false => rfl
  | num n =>
    obtain ⟨c, s, hs, hc⟩ := exists_numeralChars n
    have hread := numeral_numeralChars n hrest
    rw [hs, List.cons_append] at hread
    rw [chars, hs, List.cons_append, value_numeral hc, hread]
    rfl
  | str text =>
    obtain ⟨s, hs, hread⟩ := exists_stringChars text
    rw [chars, hs, List.cons_append, value_quote, hread]
    rfl
  | arr [] => rfl
  | arr (v :: vs) =>
    simp only [chars, List.length_cons, List.length_append] at hfuel
    have hv : value fuel (chars v ++ (itemChars vs ++ rest)) = some (v, itemChars vs ++ rest) :=
      value_chars v (by omega) (endsNumber_itemChars vs rest)
    have hvs : itemsTail fuel (itemChars vs ++ rest) = some (vs, rest) := itemsTail_itemChars vs rest (by omega)
    obtain ⟨c, s, hs, hblank, hclose⟩ := exists_chars v
    rw [chars, List.cons_append, List.append_assoc]
    rw [hs, List.cons_append] at hv ⊢
    rw [value_items hblank hclose, hv]
    simp [hvs]
  | obj [] => rfl
  | obj ((k, v) :: ms) =>
    simp only [chars, List.length_cons, List.length_append] at hfuel
    have hm : member fuel (stringChars k ++ ':' :: (chars v ++ (memberChars ms ++ rest))) = some ((k, v), memberChars ms ++ rest) :=
      member_chars k (by omega) fun n hn => value_chars v hn (endsNumber_memberChars ms rest)
    have hms : membersTail fuel (memberChars ms ++ rest) = some (ms, rest) := membersTail_memberChars ms rest (by omega)
    rw [chars, List.cons_append, List.append_assoc, List.cons_append, List.append_assoc, value_members, hm]
    simp [hms]

theorem itemsTail_itemChars (vs : List Json) {fuel : Nat} (rest : List Char) (hfuel : (itemChars vs).length ≤ fuel) :
    itemsTail fuel (itemChars vs ++ rest) = some (vs, rest) := by
  match vs, fuel with
  | [], 0 => simp [itemChars] at hfuel
  | [], fuel + 1 => rfl
  | v :: vs, 0 => simp [itemChars] at hfuel
  | v :: vs, fuel + 1 =>
    simp only [itemChars, List.length_cons, List.length_append] at hfuel
    have hv : value fuel (chars v ++ (itemChars vs ++ rest)) = some (v, itemChars vs ++ rest) :=
      value_chars v (by omega) (endsNumber_itemChars vs rest)
    have hvs : itemsTail fuel (itemChars vs ++ rest) = some (vs, rest) := itemsTail_itemChars vs rest (by omega)
    rw [itemChars, List.cons_append, List.append_assoc, itemsTail_comma, hv]
    simp [hvs]

theorem membersTail_memberChars (ms : List (Option String × Json)) {fuel : Nat} (rest : List Char)
    (hfuel : (memberChars ms).length ≤ fuel) : membersTail fuel (memberChars ms ++ rest) = some (ms, rest) := by
  match ms, fuel with
  | [], 0 => simp [memberChars] at hfuel
  | [], fuel + 1 => rfl
  | (k, v) :: ms, 0 => simp [memberChars] at hfuel
  | (k, v) :: ms, fuel + 1 =>
    simp only [memberChars, List.length_cons, List.length_append] at hfuel
    have hm : member fuel (stringChars k ++ ':' :: (chars v ++ (memberChars ms ++ rest))) = some ((k, v), memberChars ms ++ rest) :=
      member_chars k (by omega) fun n hn => value_chars v hn (endsNumber_memberChars ms rest)
    have hms : membersTail fuel (memberChars ms ++ rest) = some (ms, rest) := membersTail_memberChars ms rest (by omega)
    rw [memberChars, List.cons_append, List.append_assoc, List.cons_append, List.append_assoc, membersTail_comma, hm]
    simp [hms]

end

/-- The text of every value is parsed back. -/
@[simp] theorem parse?_print (j : Json) : parse? j.print = some j := by
  have hread : value (3 * (chars j).length + 3) (chars j ++ []) = some (j, []) := value_chars j (by omega) (by simp [EndsNumber])
  rw [List.append_nil] at hread
  unfold parse? print
  simp only [String.toList_ofList, hread]
  rfl

end WasmBinary.Json
