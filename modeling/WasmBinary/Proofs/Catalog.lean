import WasmBinary.Catalog
import WasmBinary.Proofs.Writing

/-!
# Catalogs and registrations

Adding at the end what is not there yet leaves the first occurrences of a list (`foldl_addNew`). So it is for signatures that are
registered one after another (`signatures_insertAll`), and the number of a signature is its place in that list (`number_eq_ok`).
Registration fails exactly for a catalog that outgrows 32 bits (`run_registerAll_of_le`, `run_registerAll_of_lt`).
-/

namespace WasmBinary

namespace Catalog

theorem eq_of_signatures_eq {c d : Catalog} (h : c.signatures = d.signatures) : c = d := by
  obtain ⟨ss, hss⟩ := c
  obtain ⟨ts, hts⟩ := d
  simp only at h
  subst h
  rfl

/-- Adds signatures one after another. -/
def insertAll (c : Catalog) (ss : List Signature) : Catalog := ss.foldl insert c

theorem signatures_insert (c : Catalog) (s : Signature) :
    (c.insert s).signatures = if s ∈ c.signatures then c.signatures else c.signatures ++ [s] := by
  by_cases hs : s ∈ c.signatures
  · rw [insert_of_mem hs, if_pos hs]
  · rw [signatures_insert_of_not_mem hs, if_neg hs]

/-- Adding signatures leaves the first occurrences of the old and the new ones. -/
theorem signatures_insertAll (c : Catalog) (ss : List Signature) :
    (c.insertAll ss).signatures = (c.signatures ++ ss).eraseDups := by
  rw [← foldl_addNew c.nodup]
  exact (List.foldl_hom signatures fun c s => (c.signatures_insert s).symm).symm

/-- First occurrences are distinct. -/
theorem nodup_eraseDups (ss : List Signature) : ss.eraseDups.Nodup := by
  have h := (empty.insertAll ss).nodup
  rwa [signatures_insertAll] at h

theorem insertAll_append (c : Catalog) (ss ts : List Signature) : c.insertAll (ss ++ ts) = (c.insertAll ss).insertAll ts :=
  List.foldl_append

/-- The signatures that are there stay, in front of the added ones. -/
theorem signatures_prefix_insertAll (c : Catalog) (ss : List Signature) : c.signatures <+: (c.insertAll ss).signatures := by
  rw [signatures_insertAll, List.eraseDups_append, eraseDups_of_nodup c.nodup]
  exact List.prefix_append _ _

theorem length_le_length_insertAll (c : Catalog) (ss : List Signature) :
    c.signatures.length ≤ (c.insertAll ss).signatures.length :=
  (c.signatures_prefix_insertAll ss).length_le

/-- Once a signature is added, its place is a place of the list. -/
theorem idxOf_lt_length_insert (c : Catalog) (s : Signature) :
    c.signatures.idxOf s < (c.insert s).signatures.length := by
  by_cases hs : s ∈ c.signatures
  · rw [insert_of_mem hs]
    exact List.idxOf_lt_length_of_mem hs
  · rw [signatures_insert_of_not_mem hs, List.length_append, List.length_singleton]
    exact Nat.lt_succ_of_le List.idxOf_le_length

/-- The number of a signature is its place in the list. -/
theorem number_eq_ok {c : Catalog} {s : Signature} {i : UInt32} :
    c.number s = .ok i ↔ c.signatures[i.toNat]? = some s := by
  unfold number
  constructor
  · intro h
    split at h
    · rename_i k hk
      obtain ⟨-, hi⟩ := narrow_eq_ok h
      obtain ⟨hlt, hs, -⟩ := List.idxOf?_eq_some_iff.1 hk
      rw [hi, List.getElem?_eq_getElem hlt, hs]
    · nomatch h
  · intro h
    obtain ⟨hlt, hs⟩ := List.getElem?_eq_some_iff.1 h
    have hk : c.signatures.idxOf? s = some i.toNat := by
      rw [List.idxOf?_eq_some_iff]
      refine ⟨hlt, hs, ?_⟩
      intro j hj hjs
      exact absurd (List.getElem_inj c.nodup |>.1 (hjs.trans hs.symm)) (Nat.ne_of_lt hj)
    rw [hk]
    show narrow "signature index" i.toNat = _
    rw [narrow_of_lt _ i.toNat_lt]
    exact congrArg _ UInt32.ofNat_toNat

/-- A signature of a catalog that fits in 32 bits has a number. -/
theorem exists_number_of_mem {c : Catalog} {s : Signature} (h : s ∈ c.signatures)
    (hlen : c.signatures.length ≤ 0x100000000) : ∃ i, c.number s = .ok i := by
  obtain ⟨k, hk, hs⟩ := List.getElem_of_mem h
  refine ⟨k.toUInt32, number_eq_ok.2 ?_⟩
  have hn : k.toUInt32.toNat = k := UInt32.toNat_ofNat_of_lt' (show k < 0x100000000 by omega)
  rw [hn, List.getElem?_eq_getElem hk, hs]

end Catalog

namespace CatalogM

/-- Registers signatures one after another. -/
def registerAll (ss : List Signature) : CatalogM Unit :=
  ss.forM fun s => discard (register s)

/-- What is registered for items in a row is registered for the list of all their uses. -/
theorem forM_registerAll {α : Type} (uses : α → List Signature) (items : List α) :
    (items.forM fun a => registerAll (uses a)) = registerAll (items.flatMap uses) :=
  forM_flatMap _ uses items

/-- The log after a signature is registered: one record more if it is new. -/
def logAfter (s : Signature) (c : Catalog) (log : Log) : Log :=
  if s ∈ c.signatures then log else log ++ [.registered (c.signatures.idxOf s) s]

/-- A signature is added to the catalog whether or not it has a number. -/
theorem run_tryRegister (s : Signature) (c : Catalog) (log : Log) :
    ((tryRegister s).run c).run log = .ok (narrow "signature index" (c.signatures.idxOf s), c.insert s) (logAfter s c log) := by
  unfold logAfter
  by_cases hs : s ∈ c.signatures
  · simp only [tryRegister, hs, StateT.run_bind, StateT.run_get, pure_bind, StateT.run_set, not_true, if_false, if_true]
    rfl
  · simp only [tryRegister, hs, StateT.run_bind, StateT.run_get, pure_bind, StateT.run_set, not_false_eq_true, if_true,
      if_false]
    rfl

/-- Registering a signature adds it to the catalog, and fails only if its place does not fit in 32 bits. -/
theorem run_register (s : Signature) (c : Catalog) (log : Log) :
    ((register s).run c).run log =
      match narrow "signature index" (c.signatures.idxOf s) with
      | .ok i => .ok (i, c.insert s) (logAfter s c log)
      | .error e => .error e (logAfter s c log) := by
  rw [register, StateT.run_bind, EStateM.run_bind, run_tryRegister]
  cases narrow "signature index" (c.signatures.idxOf s) <;> rfl

theorem run_map {α β : Type} (f : α → β) (x : CatalogM α) (c : Catalog) (log : Log) :
    ((f <$> x).run c).run log =
      match (x.run c).run log with
      | .ok p log' => .ok (f p.1, p.2) log'
      | .error e log' => .error e log' := by
  rw [StateT.run_map]
  show EStateM.map _ (x.run c) log = _
  unfold EStateM.map EStateM.run
  cases x.run c log <;> rfl

/-- Signatures are registered one at a time, up to the first whose place does not fit in 32 bits. -/
theorem run_registerAll_cons (s : Signature) (ss : List Signature) (c : Catalog) (log : Log) :
    ((registerAll (s :: ss)).run c).run log =
      match narrow "signature index" (c.signatures.idxOf s) with
      | .ok _ => ((registerAll ss).run (c.insert s)).run (logAfter s c log)
      | .error e => .error e (logAfter s c log) := by
  show ((Function.const UInt32 () <$> register s >>= fun _ => registerAll ss).run c).run log = _
  rw [StateT.run_bind, EStateM.run_bind, run_map, run_register]
  cases narrow "signature index" (c.signatures.idxOf s) <;> rfl

/-- Whatever is registered without failure is added. -/
theorem run_registerAll {ss : List Signature} {c c' : Catalog} {log log' : Log} {u : Unit}
    (h : ((registerAll ss).run c).run log = .ok (u, c') log') : c' = c.insertAll ss := by
  induction ss generalizing c log with
  | nil =>
    cases h
    rfl
  | cons s ss ih =>
    rw [run_registerAll_cons] at h
    split at h
    · exact ih h
    · nomatch h

/-- Signatures are registered without failure if the places of the catalog that they lead to fit in 32 bits. -/
theorem run_registerAll_of_le {ss : List Signature} {c : Catalog} (log : Log)
    (h : (c.insertAll ss).signatures.length ≤ 0x100000000) :
    ∃ log', ((registerAll ss).run c).run log = .ok ((), c.insertAll ss) log' := by
  induction ss generalizing c log with
  | nil => exact ⟨log, rfl⟩
  | cons s ss ih =>
    have hplace := c.idxOf_lt_length_insert s
    have hgrow := (c.insert s).length_le_length_insertAll ss
    have hrest : ((c.insert s).insertAll ss).signatures.length ≤ 0x100000000 := h
    rw [run_registerAll_cons, narrow_of_lt _ (by omega)]
    exact ih (logAfter s c log) hrest

/-- Otherwise registration fails at the first signature whose place does not fit. -/
theorem run_registerAll_of_lt {ss : List Signature} {c : Catalog} (log : Log) (hc : c.signatures.length ≤ 0x100000000)
    (h : 0x100000000 < (c.insertAll ss).signatures.length) :
    ∃ log', ((registerAll ss).run c).run log = .error (.outOfRange "signature index" 0x100000000) log' := by
  induction ss generalizing c log with
  | nil => exact absurd hc (Nat.not_le_of_lt h)
  | cons s ss ih =>
    have hrest : 0x100000000 < ((c.insert s).insertAll ss).signatures.length := h
    rw [run_registerAll_cons]
    by_cases hs : s ∈ c.signatures
    · have hplace := List.idxOf_lt_length_of_mem hs
      rw [narrow_of_lt _ (by omega)]
      refine ih (logAfter s c log) ?_ hrest
      rwa [Catalog.insert_of_mem hs]
    · rw [List.idxOf_eq_length hs]
      by_cases hfull : c.signatures.length = 0x100000000
      · rw [hfull]
        exact ⟨_, rfl⟩
      · rw [narrow_of_lt _ (by omega)]
        refine ih (logAfter s c log) ?_ hrest
        rw [Catalog.signatures_insert_of_not_mem hs, List.length_append, List.length_singleton]
        omega

end CatalogM

end WasmBinary
