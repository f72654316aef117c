import Mathlib.Data.List.Chain
import WasmBinary.Proofs.Locals

/-!
# Runs are as long as possible

The runs of a list of types leave out nothing, are not empty, and differ in type from their neighbours (`Maximal`). No other runs
of the same types are so: what maximal runs stand for has just these runs (`ofTypes_expand`). Any other runs of the same types are more
in number (`eq_or_length_lt`). Two lists of runs in a row become the runs of both lists of types when the two runs at the seam are
made one, should they have the same type (`join`, `ofTypes_append`). So the runs can also be found from the first local to the last, where
each local goes to the last run or makes a new one (`ofTypes_eq_foldl`).
-/

namespace WasmBinary.LocalRun

/-- No run is empty, and neighbours differ in type. -/
structure Maximal (runs : List LocalRun) : Prop where
  /-- Every run has a local. -/
  nonempty : ∀ run ∈ runs, 1 ≤ run.count
  /-- No run could have been part of the one before. -/
  apart : runs.IsChain fun a b => a.type ≠ b.type

instance (runs : List LocalRun) : Decidable (Maximal runs) :=
  decidable_of_iff ((∀ run ∈ runs, 1 ≤ run.count) ∧ runs.IsChain fun a b => a.type ≠ b.type)
    ⟨fun h => ⟨h.1, h.2⟩, fun h => ⟨h.nonempty, h.apart⟩⟩

@[simp] theorem expand_nil : expand [] = [] := rfl

@[simp] theorem expand_cons (run : LocalRun) (runs : List LocalRun) :
    expand (run :: runs) = List.replicate run.count run.type ++ expand runs := rfl

@[simp] theorem expand_append (before after : List LocalRun) : expand (before ++ after) = expand before ++ expand after := by
  simp [expand]

/-! ## Runs in a row -/

/-- Two lists of runs in a row, with the last run of the first list and the first run of the second made one if they have the same type. -/
def join (before after : List LocalRun) : List LocalRun :=
  match before.getLast?, after with
  | some a, b :: rest =>
    if a.type = b.type then before.dropLast ++ ⟨a.count + b.count, a.type⟩ :: rest else before ++ after
  | _, _ => before ++ after

@[simp] theorem join_nil_left (after : List LocalRun) : join [] after = after := rfl

@[simp] theorem join_nil_right (before : List LocalRun) : join before [] = before := by
  unfold join
  split
  · rename_i h
    nomatch h
  · exact List.append_nil before

@[simp] theorem join_concat_cons (before : List LocalRun) (a b : LocalRun) (after : List LocalRun) :
    join (before ++ [a]) (b :: after) =
      if a.type = b.type then before ++ ⟨a.count + b.count, a.type⟩ :: after else before ++ [a] ++ b :: after := by
  simp [join]

/-- Of two lists in a row, one is empty, or there is a run on each side of the seam. -/
theorem join_cases {motive : List LocalRun → List LocalRun → Prop} (left : ∀ after, motive [] after) (right : ∀ before, motive before [])
    (seam : ∀ before a b after, motive (before ++ [a]) (b :: after)) (before after : List LocalRun) : motive before after := by
  rcases List.eq_nil_or_concat before with rfl | ⟨init, a, rfl⟩
  · exact left after
  · cases after with
    | nil => exact right _
    | cons b after =>
      rw [List.concat_eq_append]
      exact seam init a b after

/-- Runs in a row stand for the types in a row. -/
@[simp] theorem expand_join (before after : List LocalRun) : expand (join before after) = expand before ++ expand after := by
  induction before, after using join_cases with
  | left after => simp
  | right before => simp
  | seam before a b after =>
    by_cases h : a.type = b.type
    · simp only [join_concat_cons, h, if_true, expand_append, expand_cons, expand_nil, List.replicate_add, List.append_nil,
        List.append_assoc]
    · simp [h]

theorem maximal_join {before after : List LocalRun} (hbefore : Maximal before) (hafter : Maximal after) : Maximal (join before after) := by
  induction before, after using join_cases with
  | left after => simpa using hafter
  | right before => simpa using hbefore
  | seam before a b after =>
    obtain ⟨hcounts, htypes⟩ := hbefore
    obtain ⟨hcounts', htypes'⟩ := hafter
    rw [join_concat_cons]
    by_cases h : a.type = b.type
    · rw [if_pos h]
      refine ⟨?_, ?_⟩
      · rw [List.forall_mem_append] at hcounts ⊢
        rw [List.forall_mem_cons] at hcounts' ⊢
        exact ⟨hcounts.1, Nat.le_add_right_of_le (hcounts.2 a (by simp)), hcounts'.2⟩
      · -- the run that was made of two has their type, so it differs from the neighbours of both
        rw [List.isChain_append] at htypes ⊢
        rw [List.isChain_cons] at htypes' ⊢
        rw [← h] at htypes'
        obtain ⟨hinit, -, hseam⟩ := htypes
        exact ⟨hinit, htypes', by simpa using hseam⟩
    · rw [if_neg h]
      refine ⟨List.forall_mem_append.2 ⟨hcounts, hcounts'⟩, ?_⟩
      rw [List.isChain_append]
      exact ⟨htypes, htypes', by simpa using h⟩

/-! ## Pushing locals one by one -/

/-- A local that is pushed is a run in front of the others. -/
theorem push_eq_join (t : ValueType) (runs : List LocalRun) : push t runs = join [⟨1, t⟩] runs := by
  cases runs with
  | nil => rfl
  | cons run runs =>
    by_cases h : t = run.type
    · simp [push, join, h, Nat.add_comm]
    · simp [push, join, h, Ne.symm h]

theorem maximal_ofTypes (ts : List ValueType) : Maximal (ofTypes ts) := by
  induction ts with
  | nil => decide
  | cons t ts ih =>
    have ht : Maximal [⟨1, t⟩] := ⟨by simp, by simp⟩
    rw [ofTypes, List.foldr_cons, push_eq_join]
    exact maximal_join ht ih

theorem push_of_ne {t : ValueType} {runs : List LocalRun} (h : ∀ run ∈ runs.head?, t ≠ run.type) : push t runs = ⟨1, t⟩ :: runs := by
  cases runs with
  | nil => rfl
  | cons run runs =>
    have hne : run.type ≠ t := fun heq => h run (by simp) heq.symm
    simp [push, hne]

/-- The run in front has the type of the local that was pushed. -/
theorem type_of_mem_head?_push {t : ValueType} {runs : List LocalRun} {run : LocalRun} (h : run ∈ (push t runs).head?) : run.type = t := by
  cases runs with
  | nil =>
    cases h
    rfl
  | cons first runs =>
    rw [push] at h
    by_cases hfirst : first.type = t
    · rw [if_pos hfirst] at h
      cases h
      rfl
    · rw [if_neg hfirst] at h
      cases h
      rfl

/-- Locals of the type of the first run all go to that run. -/
theorem foldr_push_replicate (t : ValueType) (n c : Nat) (runs : List LocalRun) :
    (List.replicate n t).foldr push (⟨c, t⟩ :: runs) = ⟨c + n, t⟩ :: runs := by
  induction n with
  | zero => rfl
  | succ n ih =>
    rw [List.replicate_succ, List.foldr_cons, ih]
    simp [push, Nat.add_assoc]

/-- Locals of another type than the first run make a run of their own. -/
theorem foldr_push_replicate_of_ne {t : ValueType} {n : Nat} {runs : List LocalRun} (hn : 1 ≤ n)
    (h : ∀ run ∈ runs.head?, t ≠ run.type) : (List.replicate n t).foldr push runs = ⟨n, t⟩ :: runs := by
  obtain ⟨m, rfl⟩ := Nat.exists_eq_add_of_le' hn
  rw [List.replicate_succ', List.foldr_append, List.foldr_cons, List.foldr_nil, push_of_ne h, foldr_push_replicate, Nat.add_comm]

/-! ## The only maximal runs, and the fewest -/

theorem ofTypes_expand_cons (run : LocalRun) (runs : List LocalRun) :
    ofTypes (expand (run :: runs)) = (List.replicate run.count run.type).foldr push (ofTypes (expand runs)) := by
  rw [expand_cons, ofTypes, List.foldr_append, ← ofTypes]

/-- What maximal runs stand for has just these runs. -/
theorem ofTypes_expand {runs : List LocalRun} (h : Maximal runs) : ofTypes (expand runs) = runs := by
  induction runs with
  | nil => rfl
  | cons run runs ih =>
    obtain ⟨hcounts, htypes⟩ := h
    rw [List.isChain_cons] at htypes
    simp only [List.forall_mem_cons] at hcounts
    rw [ofTypes_expand_cons, ih ⟨hcounts.2, htypes.2⟩, foldr_push_replicate_of_ne hcounts.1 htypes.1]

/-- Neighbours of one type add a run of their own, or no run at all. -/
theorem foldr_push_cases (t : ValueType) (n : Nat) (runs : List LocalRun) :
    (List.replicate n t).foldr push runs = ⟨n, t⟩ :: runs ∨ ((List.replicate n t).foldr push runs).length ≤ runs.length := by
  rcases Nat.eq_zero_or_pos n with rfl | hn
  · exact .inr le_rfl
  · by_cases h : ∀ run ∈ runs.head?, t ≠ run.type
    · exact .inl (foldr_push_replicate_of_ne hn h)
    · right
      cases runs with
      | nil => simp at h
      | cons run runs =>
        obtain ⟨count, type⟩ := run
        simp only [List.head?_cons, Option.mem_some, forall_eq', not_not] at h
        subst h
        rw [foldr_push_replicate]
        simp

/-- Runs that are not those of what they stand for are more in number. -/
theorem eq_or_length_lt (runs : List LocalRun) :
    ofTypes (expand runs) = runs ∨ (ofTypes (expand runs)).length < runs.length := by
  induction runs with
  | nil => exact .inl rfl
  | cons run runs ih =>
    rw [ofTypes_expand_cons]
    have hcases := foldr_push_cases run.type run.count (ofTypes (expand runs))
    rcases ih with ih | ih
    · rw [ih] at hcases ⊢
      refine hcases.imp_right ?_
      intro hle
      simp only [List.length_cons]
      omega
    · right
      rcases hcases with heq | hle
      · rw [heq]
        simp only [List.length_cons]
        omega
      · simp only [List.length_cons]
        omega

/-! ## The runs of types in a row -/

/-- The runs of types in a row are the runs of the parts, joined. -/
theorem ofTypes_append (xs ys : List ValueType) : ofTypes (xs ++ ys) = join (ofTypes xs) (ofTypes ys) := by
  have h := ofTypes_expand (maximal_join (maximal_ofTypes xs) (maximal_ofTypes ys))
  rw [expand_join, expand_ofTypes, expand_ofTypes] at h
  exact h

/-- Adds a local behind a list of runs: to the last run if it has the same type, else as a run of its own. -/
def pushLast (runs : List LocalRun) (t : ValueType) : List LocalRun :=
  join runs [⟨1, t⟩]

/-- The runs are found from the first local to the last as well. -/
theorem ofTypes_eq_foldl (ts : List ValueType) : ofTypes ts = ts.foldl pushLast [] := by
  induction ts using List.reverseRecOn with
  | nil => rfl
  | append_singleton ts t ih =>
    rw [List.foldl_append, ← ih, ofTypes_append]
    rfl

/-! ## The runs of a list of types -/

/-- The runs of fewer than 2^32 locals have lengths of 32 bits. They stand for the locals in order, none is empty, neighbours differ in
type, and no other runs are so; all other runs that stand for the same locals are more in number. They are also found from the first local to
the last. Wherever the locals are cut in two, their runs are those of the parts, with the two runs at the cut made one exactly if they have
the same type. -/
theorem ofTypes_canonical (ts : List ValueType) (h : ts.length < 0x100000000) :
    (∀ run ∈ ofTypes ts, run.count < 0x100000000) ∧ (∀ runs, expand runs = ts ∧ Maximal runs ↔ runs = ofTypes ts) ∧
      (∀ runs, expand runs = ts → runs ≠ ofTypes ts → (ofTypes ts).length < runs.length) ∧ ofTypes ts = ts.foldl pushLast [] ∧
      ∀ xs ys, ts = xs ++ ys → ofTypes ts = join (ofTypes xs) (ofTypes ys) := by
  refine ⟨?_, ?_, ?_, ofTypes_eq_foldl ts, ?_⟩
  · intro run hrun
    have hle := count_le_length_expand hrun
    rw [expand_ofTypes] at hle
    omega
  · intro runs
    constructor
    · rintro ⟨rfl, hmaximal⟩
      exact (ofTypes_expand hmaximal).symm
    · rintro rfl
      exact ⟨expand_ofTypes ts, maximal_ofTypes ts⟩
  · rintro runs rfl hne
    exact (eq_or_length_lt runs).resolve_left fun heq => hne heq.symm
  · rintro xs ys rfl
    exact ofTypes_append xs ys

/-- Types of six locals, with a gap between those of type `i32`. -/
def gapped : List ValueType := [.i32, .i32, .f64, .f64, .f64, .i32]

/-- The locals on both sides of a gap are not made one run, and a cut through a run does not show. -/
theorem ofTypes_canonical_gapped :
    gapped.length < 0x100000000 ∧ ofTypes gapped = [⟨2, .i32⟩, ⟨3, .f64⟩, ⟨1, .i32⟩] ∧
      (∀ runs, expand runs = gapped → runs ≠ ofTypes gapped → 3 < runs.length) ∧
      ofTypes gapped = join [⟨2, .i32⟩, ⟨1, .f64⟩] [⟨2, .f64⟩, ⟨1, .i32⟩] := by
  obtain ⟨-, hmaximal, hfewest, -, hcut⟩ := ofTypes_canonical gapped (by decide)
  refine ⟨by decide, ?_, hfewest, hcut [.i32, .i32, .f64] [.f64, .f64, .i32] rfl⟩
  exact ((hmaximal _).1 (by decide)).symm

end WasmBinary.LocalRun
