import Mathlib.Data.List.Forall2

/-!
# Lists and options

Facts about lists and options of anything, for which the library has no name: where an item goes in or is changed after so many others,
the first of the values that are found, lists related item by item, and loops over lists of lists. Adding at the end what is not there yet
leaves the first occurrences of a list (`foldl_addNew`).
-/

namespace WasmBinary

variable {α β γ : Type}

/-! ## Places -/

theorem insertIdx_length_append (l r : List α) (a : α) : (l ++ r).insertIdx l.length a = l ++ a :: r := by
  induction l with
  | nil => rfl
  | cons b l ih => simp [ih]

theorem modify_length_append (l r : List α) (a : α) (g : α → α) : (l ++ a :: r).modify l.length g = l ++ g a :: r := by
  induction l with
  | nil => rfl
  | cons b l ih => simp [ih]

/-! ## Values that are found -/

theorem findSome?_congr {f g : α → Option β} {items : List α} (h : ∀ a ∈ items, f a = g a) :
    items.findSome? f = items.findSome? g := by
  rw [← List.head?_filterMap, ← List.head?_filterMap, List.filterMap_congr h]

theorem findSome?_filterMap (f : α → Option β) (g : β → Option γ) (items : List α) :
    (items.filterMap f).findSome? g = items.findSome? fun a => (f a).bind g := by
  rw [← List.head?_filterMap, ← List.head?_filterMap, List.filterMap_filterMap]

theorem isEmpty_filterMap (f : α → Option β) (items : List α) :
    (items.filterMap f).isEmpty = !items.any fun a => (f a).isSome := by
  rw [Bool.eq_iff_iff]
  simp

/-- A value for each item is found exactly when each is, and then the values are in order. -/
theorem mapM_eq_some {f : α → Option β} {items : List α} {values : List β} :
    items.mapM f = some values ↔ List.Forall₂ (fun a b => f a = some b) items values := by
  induction items generalizing values with
  | nil => simp [eq_comm]
  | cons a items ih =>
    rw [List.mapM_cons, List.forall₂_cons_left_iff]
    simp only [Option.bind_eq_bind, Option.bind_eq_some_iff, Option.pure_def, Option.some.injEq, ih]
    constructor
    · rintro ⟨b, hb, bs, hbs, rfl⟩
      exact ⟨b, bs, hb, hbs, rfl⟩
    · rintro ⟨b, bs, hb, hbs, rfl⟩
      exact ⟨b, hb, bs, hbs, rfl⟩

/-! ## Relations -/

/-- Related lists have related items at each place. -/
theorem forall₂_getElem? {R : α → β → Prop} {as : List α} {bs : List β} (h : List.Forall₂ R as bs) {i : Nat} {a : α}
    (ha : as[i]? = some a) : ∃ b, bs[i]? = some b ∧ R a b := by
  induction h generalizing i with
  | nil => nomatch ha
  | @cons a' b' _ _ hab _ ih =>
    cases i with
    | zero =>
      obtain rfl := Option.some.inj ha
      exact ⟨b', rfl, hab⟩
    | succ i => exact ih ha

/-- Lists that are related to one list are related to each other. -/
theorem forall₂_of_common {R : α → β → Prop} {S : α → γ → Prop} {T : β → γ → Prop} {as : List α} {bs : List β} {cs : List γ}
    (hR : List.Forall₂ R as bs) (hS : List.Forall₂ S as cs) (h : ∀ a ∈ as, ∀ b c, R a b → S a c → T b c) :
    List.Forall₂ T bs cs := by
  induction hR generalizing cs with
  | nil =>
    obtain rfl := List.forall₂_nil_left_iff.1 hS
    exact .nil
  | @cons a b as bs hab _ ih =>
    obtain ⟨c, cs, hac, hrest, rfl⟩ := List.forall₂_cons_left_iff.1 hS
    exact .cons (h a List.mem_cons_self b c hab hac) (ih hrest fun a' ha' => h a' (List.mem_cons_of_mem _ ha'))

theorem rel_imp {R S : α → β → Prop} (h : ∀ a b, R a b → S a b) {o : Option α} {v : Option β} (hR : Option.Rel R o v) :
    Option.Rel S o v := by
  cases hR with
  | none => exact .none
  | some hab => exact .some (h _ _ hab)

/-! ## First occurrences -/

section

variable [BEq α] [LawfulBEq α] {as : List α}

/-- A list without repetitions is the list of its first occurrences. -/
theorem eraseDups_of_nodup (h : as.Nodup) : as.eraseDups = as := by
  induction as with
  | nil => rfl
  | cons a as ih =>
    obtain ⟨ha, has⟩ := List.nodup_cons.1 h
    have hfilter : (as.filter fun b => !b == a) = as := by
      rw [List.filter_eq_self]
      intro b hb
      have hne : b ≠ a := fun e => ha (e ▸ hb)
      simpa using hne
    rw [List.eraseDups_cons, hfilter, ih has]

/-- Adding at the end what is not there yet, item by item, leaves the first occurrences of the old and the new items. -/
theorem foldl_addNew (h : as.Nodup) (bs : List α) :
    bs.foldl (fun l b => if b ∈ l then l else l ++ [b]) as = (as ++ bs).eraseDups := by
  induction bs generalizing as with
  | nil => rw [List.append_nil, eraseDups_of_nodup h, List.foldl_nil]
  | cons b bs ih =>
    rw [List.foldl_cons]
    by_cases hb : b ∈ as
    · have hremove : (b :: bs).removeAll as = bs.removeAll as := by
        simp [List.removeAll, hb]
      rw [if_pos hb, ih h, List.eraseDups_append, List.eraseDups_append, hremove]
    · have hnodup : (as ++ [b]).Nodup := by
        refine List.nodup_append.2 ⟨h, by simp, ?_⟩
        intro a ha c hc hac
        rw [List.mem_singleton] at hc
        exact hb (hc ▸ hac ▸ ha)
      rw [if_neg hb, ih hnodup, List.append_assoc, List.singleton_append]

end

/-! ## Loops -/

section

variable {m : Type → Type} [Monad m]

theorem forM_congr {f g : α → m Unit} {items : List α} (h : ∀ a ∈ items, f a = g a) : items.forM f = items.forM g := by
  induction items with
  | nil => rfl
  | cons a items ih =>
    obtain ⟨ha, hitems⟩ := List.forall_mem_cons.1 h
    show (f a >>= fun _ => items.forM f) = (g a >>= fun _ => items.forM g)
    rw [ha, ih hitems]

/-- What is done for lists in a row is done for the list of all their items. -/
theorem forM_flatMap [LawfulMonad m] (action : β → m Unit) (list : α → List β) (items : List α) :
    (items.forM fun a => (list a).forM action) = (items.flatMap list).forM action := by
  induction items with
  | nil => rfl
  | cons a items ih =>
    rw [List.flatMap_cons]
    refine Eq.trans ?_ List.forM_append.symm
    exact congrArg (fun rest => (list a).forM action >>= fun _ => rest) ih

end

end WasmBinary
