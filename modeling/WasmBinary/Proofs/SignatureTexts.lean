import Mathlib.Data.List.Basic
import WasmBinary.Log

/-!
# A signature is known by its text

The text of a signature can be taken apart in one way only. Every name of a type has three characters, so the first name ends where it has
to end; after it comes a comma if there are more parameters, and a parenthesis if there are none (`paramText_append_inj`). What is left is
the result (`resultText_inj`). So two signatures with the same text are the same, and so are two errors, or two records of a log, that name a
signature and have the same wording: neither the words nor the numbers around the signature can be taken for a part of it
(`mem_of_mem_text`).
-/

namespace WasmBinary

namespace ValueType

@[simp] theorem length_name (t : ValueType) : t.name.toList.length = 3 := by
  cases t <;> rfl

@[simp] theorem name_inj {t u : ValueType} : t.name = u.name ↔ t = u := by
  constructor
  · intro h
    have hname := congrArg ofName? h
    simpa using hname
  · rintro rfl
    rfl

/-- A name ends where the next one does. -/
theorem name_append_inj {t u : ValueType} {r r' : List Char} (h : t.name.toList ++ r = u.name.toList ++ r') : t = u ∧ r = r' := by
  obtain ⟨hname, hrest⟩ := List.append_inj h (by simp)
  exact ⟨name_inj.1 (String.toList_inj.1 hname), hrest⟩

end ValueType

namespace Signature

open ValueType

/-! ## Taking a text apart -/

theorem toList_paramText_cons_cons (t u : ValueType) (ts : List ValueType) :
    (paramText (t :: u :: ts)).toList = t.name.toList ++ ',' :: ' ' :: (paramText (u :: ts)).toList := by
  simp [paramText]

/-- Parameters end at the parenthesis. -/
theorem paramText_cons_append_inj {t u : ValueType} {ts us : List ValueType} {r r' : List Char}
    (h : (paramText (t :: ts)).toList ++ ')' :: r = (paramText (u :: us)).toList ++ ')' :: r') : t :: ts = u :: us ∧ r = r' := by
  induction ts generalizing t u us with
  | nil =>
    cases us with
    | nil =>
      obtain ⟨rfl, hrest⟩ := name_append_inj h
      exact ⟨rfl, List.tail_eq_of_cons_eq hrest⟩
    | cons v us =>
      rw [toList_paramText_cons_cons, List.append_assoc] at h
      obtain ⟨-, hrest⟩ := name_append_inj h
      simp at hrest
  | cons s ts ih =>
    rw [toList_paramText_cons_cons, List.append_assoc] at h
    cases us with
    | nil =>
      obtain ⟨-, hrest⟩ := name_append_inj h
      simp at hrest
    | cons v us =>
      rw [toList_paramText_cons_cons, List.append_assoc] at h
      obtain ⟨rfl, hrest⟩ := name_append_inj h
      simp only [List.cons_append, List.cons.injEq, true_and] at hrest
      obtain ⟨htypes, hr⟩ := ih hrest
      exact ⟨by rw [htypes], hr⟩

/-- A name of a type does not start with a parenthesis. -/
theorem paramText_cons_append_ne (t : ValueType) (ts : List ValueType) (r r' : List Char) :
    (paramText (t :: ts)).toList ++ r ≠ ')' :: r' := by
  cases ts with
  | nil => cases t <;> simp [paramText, name]
  | cons u ts => cases t <;> simp [paramText, name]

theorem paramText_append_inj {ts us : List ValueType} {r r' : List Char}
    (h : (paramText ts).toList ++ ')' :: r = (paramText us).toList ++ ')' :: r') : ts = us ∧ r = r' := by
  cases ts with
  | nil =>
    cases us with
    | nil => exact ⟨rfl, List.tail_eq_of_cons_eq h⟩
    | cons u us => exact absurd h.symm (paramText_cons_append_ne u us _ _)
  | cons t ts =>
    cases us with
    | nil => exact absurd h (paramText_cons_append_ne t ts _ _)
    | cons u us => exact paramText_cons_append_inj h

theorem resultText_inj {a b : Option ValueType} (h : resultText a = resultText b) : a = b := by
  cases a with
  | none =>
    cases b with
    | none => rfl
    | some u => cases u <;> simp [resultText, name] at h
  | some t =>
    cases b with
    | none => cases t <;> simp [resultText, name] at h
    | some u => simpa [resultText] using h

theorem toList_text (s : Signature) : s.text.toList = '(' :: ((paramText s.params).toList ++ ')' :: (resultText s.result).toList) := by
  simp [text]

@[simp] theorem text_inj {a b : Signature} : a.text = b.text ↔ a = b := by
  constructor
  · intro h
    have hchars := congrArg String.toList h
    rw [toList_text, toList_text] at hchars
    obtain ⟨hparams, hrest⟩ := paramText_append_inj (List.tail_eq_of_cons_eq hchars)
    have hresult := resultText_inj (String.toList_inj.1 hrest)
    cases a
    cases b
    simp_all
  · rintro rfl
    rfl

/-! ## The characters of a text -/

/-- The characters that the text of a signature is made of. -/
def alphabet : List Char := ['(', ')', ',', ' ', '-', '>', 'i', 'f', '3', '2', '6', '4']

theorem mem_of_mem_name {t : ValueType} {c : Char} (h : c ∈ t.name.toList) : c ∈ alphabet := by
  have hall : ∀ c ∈ t.name.toList, c ∈ alphabet := by cases t <;> simp [name, alphabet]
  exact hall c h

theorem mem_of_mem_paramText {ts : List ValueType} {c : Char} (h : c ∈ (paramText ts).toList) : c ∈ alphabet := by
  induction ts with
  | nil => simp [paramText] at h
  | cons t ts ih =>
    cases ts with
    | nil => exact mem_of_mem_name h
    | cons u ts =>
      rw [toList_paramText_cons_cons] at h
      simp only [List.mem_append, List.mem_cons] at h
      rcases h with h | rfl | rfl | h
      · exact mem_of_mem_name h
      · decide
      · decide
      · exact ih h

theorem mem_of_mem_text {s : Signature} {c : Char} (h : c ∈ s.text.toList) : c ∈ alphabet := by
  rw [toList_text] at h
  simp only [List.mem_append, List.mem_cons] at h
  rcases h with rfl | h | rfl | h
  · decide
  · exact mem_of_mem_paramText h
  · decide
  · cases hresult : s.result with
    | none => simp [hresult, resultText] at h
    | some t =>
      rw [hresult] at h
      simp only [resultText, String.toList_append, List.mem_append] at h
      rcases h with h | h
      · have harrow : ∀ c ∈ " -> ".toList, c ∈ alphabet := by simp [alphabet]
        exact harrow c h
      · exact mem_of_mem_name h

end Signature

/-! ## Texts that name a signature -/

namespace EncodeError

theorem toList_message_unregisteredSignature (s : Signature) :
    (unregisteredSignature s).message.toList = "unregistered signature: ".toList ++ s.text.toList :=
  String.toList_append

/-- No other error has the wording of one that names a signature. -/
theorem message_eq_unregisteredSignature {e : EncodeError} {s : Signature} :
    e.message = (unregisteredSignature s).message ↔ e = unregisteredSignature s := by
  constructor
  · intro h
    have hchars := congrArg String.toList h
    rw [toList_message_unregisteredSignature] at hchars
    unfold message at hchars
    cases e with
    | unregisteredSignature s' => simpa [String.toList_inj] using hchars
    | outOfRange what value =>
      -- the words before the number have a letter that the other wording lacks
      have hmem : 'o' ∈ "unregistered signature: ".toList ++ s.text.toList := by
        rw [← hchars]
        simp
      rcases List.mem_append.1 hmem with hmem | hmem
      · exact absurd hmem (by decide)
      · exact absurd (Signature.mem_of_mem_text hmem) (by decide)
    | _ => simp at hchars
  · rintro rfl
    rfl

end EncodeError

namespace LogRecord

theorem toList_message_registered (i : Nat) (s : Signature) :
    (registered i s).message.toList = "registered signature #".toList ++ ((Nat.repr i).toList ++ ':' :: ' ' :: s.text.toList) := by
  unfold message
  simp

/-- A character that is no digit is not in a number. -/
theorem not_mem_repr {c : Char} (h : c.isDigit = false) (i : Nat) : c ∉ (Nat.repr i).toList := by
  intro hc
  rw [Nat.toList_repr] at hc
  have hdigit := Nat.isDigit_of_mem_toDigits (by decide) (by decide) hc
  simp [h] at hdigit

/-- No other record has the wording of one about a new signature. -/
theorem message_eq_registered {r : LogRecord} {i : Nat} {s : Signature} :
    r.message = (registered i s).message ↔ r = registered i s := by
  constructor
  · intro h
    have hchars := congrArg String.toList h
    rw [toList_message_registered] at hchars
    cases r with
    | registered j s' =>
      -- the number ends at the colon, and there is no other one
      have hcolon : ':' ∉ ' ' :: s'.text.toList := by
        intro hmem
        rcases List.mem_cons.1 hmem with hmem | hmem
        · exact absurd hmem (by decide)
        · exact absurd (Signature.mem_of_mem_text hmem) (by decide)
      rw [toList_message_registered, List.append_cancel_left_eq,
        List.append_cons_inj_of_notMem (not_mem_repr (by decide) j) hcolon] at hchars
      obtain ⟨hdigits, -, htext⟩ := hchars
      have hnumber : j = i := by
        rw [Nat.toList_repr, Nat.toList_repr] at hdigits
        simpa [Nat.ofDigitChars_ten_toDigits] using congrArg (Nat.ofDigitChars 10 · 0) hdigits
      rw [hnumber, Signature.text_inj.1 (String.toList_inj.1 (List.tail_eq_of_cons_eq htext))]
    | sectionWritten name size =>
      -- the unit after the number has a letter that the other wording lacks
      have hmem : 'y' ∈ "registered signature #".toList ++ ((Nat.repr i).toList ++ ':' :: ' ' :: s.text.toList) := by
        rw [← hchars]
        unfold message
        simp
      simp only [List.mem_append, List.mem_cons] at hmem
      rcases hmem with hmem | hmem | hmem | hmem | hmem
      · exact absurd hmem (by decide)
      · exact absurd hmem (not_mem_repr (by decide) i)
      · exact absurd hmem (by decide)
      · exact absurd hmem (by decide)
      · exact absurd (Signature.mem_of_mem_text hmem) (by decide)
    | _ =>
      unfold message at hchars
      simp at hchars
  · rintro rfl
    rfl

end LogRecord

/-- Two signatures have the same text exactly if they are the same, however many parameters they have. So the error that a signature is not
registered, and the record that it was, are known by their wording: no other error and no other record has it, nor one of the same kind with
another signature. -/
theorem signature_texts_injective (a : Signature) :
    (∀ b : Signature, a.text = b.text ↔ a = b) ∧
      (∀ e : EncodeError, e.message = (EncodeError.unregisteredSignature a).message ↔ e = .unregisteredSignature a) ∧
      ∀ (i : Nat) (r : LogRecord), r.message = (LogRecord.registered i a).message ↔ r = .registered i a :=
  ⟨fun _ => Signature.text_inj, fun _ => EncodeError.message_eq_unregisteredSignature, fun _ _ => LogRecord.message_eq_registered⟩

end WasmBinary
