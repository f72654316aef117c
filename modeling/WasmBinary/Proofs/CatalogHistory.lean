import WasmBinary.Proofs.TypeSection

/-!
# The history of a catalog

A catalog grows by two kinds of actions: a signature is registered, or the signatures of the calls through the table in some
expressions are. One action adds the signatures that it registers and gives their number if it is asked for one (`run_perform`); a
sequence of actions adds all of them in order (`leads_answers`). What is there stays in its place (`signatures_prefix_insertAll`), so a
number stands for the same signature from the action that gave it on, whatever happens later.
-/

namespace WasmBinary

namespace Catalog

/-- The number stands for the signature: the signature is in that place, and looking it up gives the number. -/
def Denotes (c : Catalog) (i : UInt32) (s : Signature) : Prop :=
  c.signatures[i.toNat]? = some s ∧ c.number s = .ok i

theorem denotes_of_getElem? {c : Catalog} {i : UInt32} {s : Signature} (h : c.signatures[i.toNat]? = some s) : c.Denotes i s :=
  ⟨h, number_eq_ok.2 h⟩

/-- Looking a signature up fails as unregistered exactly if it is not there. -/
theorem number_eq_unregistered {c : Catalog} {s : Signature} :
    c.number s = .error (.unregisteredSignature s) ↔ s ∉ c.signatures := by
  unfold number
  rw [← List.idxOf?_eq_none_iff]
  cases c.signatures.idxOf? s with
  | none => simp
  | some k =>
    simp only [narrow, reduceCtorEq, iff_false]
    split <;> simp

/-- Once a signature is added, it is in its place. -/
theorem getElem?_idxOf_insert (c : Catalog) (s : Signature) : (c.insert s).signatures[c.signatures.idxOf s]? = some s := by
  by_cases hs : s ∈ c.signatures
  · rw [insert_of_mem hs]
    exact List.getElem?_idxOf hs
  · rw [signatures_insert_of_not_mem hs, List.idxOf_eq_length hs]
    simp

end Catalog

namespace CatalogM

/-- Registering signatures that are all present changes nothing, and nothing is logged. -/
theorem run_registerAll_of_subset {ss : List Signature} {c : Catalog} (log : Log) (hc : c.signatures.length ≤ 0x100000000)
    (h : ∀ s ∈ ss, s ∈ c.signatures) : ((registerAll ss).run c).run log = .ok ((), c) log := by
  induction ss with
  | nil => rfl
  | cons s ss ih =>
    obtain ⟨hs, hss⟩ := List.forall_mem_cons.1 h
    have hplace := List.idxOf_lt_length_of_mem hs
    have hlog : logAfter s c log = log := if_pos hs
    rw [run_registerAll_cons, narrow_of_lt _ (by omega), Catalog.insert_of_mem hs, hlog]
    exact ih hss

end CatalogM

/-- Something that is done with a catalog. -/
inductive CatalogAction where
  /-- A signature is registered. -/
  | register (s : Signature)
  /-- The signatures of all calls through the table in expressions are registered. -/
  | collect (es : List Expr)

namespace CatalogAction

/-- Does it; a registration gives the number of its signature. -/
def perform : CatalogAction → CatalogM (Option UInt32)
  | register s => some <$> CatalogM.register s
  | collect es => do
    es.forM CatalogM.registerCalls
    return none

/-- The signatures that are registered, in order and with repetitions. -/
def signatures : CatalogAction → List Signature
  | register s => [s]
  | collect es => Expr.calledSignaturesAll es

/-- The number that is given, if one is asked for: the place where the signature is, or where it will be. -/
def answer (c : Catalog) : CatalogAction → Option UInt32
  | register s => some (c.signatures.idxOf s).toUInt32
  | collect _ => none

/-! ## One action -/

theorem run_perform_register {s : Signature} {c : Catalog} (log : Log) (h : c.signatures.idxOf s < 0x100000000) :
    ((register s).perform.run c).run log = .ok ((register s).answer c, c.insert s) (CatalogM.logAfter s c log) := by
  rw [perform, CatalogM.run_map, CatalogM.run_register, narrow_of_lt _ h]
  rfl

theorem run_perform_collect {es : List Expr} {c c' : Catalog} {log log' : Log}
    (h : ((CatalogM.registerAll (Expr.calledSignaturesAll es)).run c).run log = .ok ((), c') log') :
    ((collect es).perform.run c).run log = .ok ((collect es).answer c, c') log' := by
  rw [← Expr.flatMap_indirectSignatures, ← (CatalogM.agree_forM_registerCalls es).run_eq_ok] at h
  rw [perform, StateT.run_bind, EStateM.run_bind, h]
  rfl

/-- As long as its places fit in 32 bits, the catalog takes all signatures that an action registers. -/
theorem run_perform {a : CatalogAction} {c : Catalog} (log : Log)
    (h : (c.insertAll a.signatures).signatures.length ≤ 0x100000000) :
    ∃ log', (a.perform.run c).run log = .ok (a.answer c, c.insertAll a.signatures) log' := by
  cases a with
  | register s => exact ⟨_, run_perform_register log (Nat.lt_of_lt_of_le (c.idxOf_lt_length_insert s) h)⟩
  | collect es =>
    obtain ⟨log', hrun⟩ := CatalogM.run_registerAll_of_le log h
    exact ⟨log', run_perform_collect hrun⟩

/-- An action that registers nothing new leaves the catalog and the log as they are. -/
theorem run_perform_of_subset {a : CatalogAction} {c : Catalog} (log : Log) (hc : c.signatures.length ≤ 0x100000000)
    (h : ∀ s ∈ a.signatures, s ∈ c.signatures) : (a.perform.run c).run log = .ok (a.answer c, c) log := by
  cases a with
  | register s =>
    have hs : s ∈ c.signatures := h s (List.mem_singleton_self s)
    have hlog : CatalogM.logAfter s c log = log := if_pos hs
    have hrun := run_perform_register log (Nat.lt_of_lt_of_le (List.idxOf_lt_length_of_mem hs) hc)
    rwa [Catalog.insert_of_mem hs, hlog] at hrun
  | collect es => exact run_perform_collect (CatalogM.run_registerAll_of_subset log hc h)

/-! ## Sequences of actions -/

/-- All signatures that actions register, in order and with repetitions. -/
def registered (actions : List CatalogAction) : List Signature :=
  actions.flatMap signatures

/-- What actions give, one after another. -/
def answers (c : Catalog) : List CatalogAction → List (Option UInt32)
  | [] => []
  | a :: actions => a.answer c :: answers (c.insertAll a.signatures) actions

/-- The actions, done one after another, lead from a catalog to another one and give these answers, whatever the log. -/
def Leads (c : Catalog) (actions : List CatalogAction) (given : List (Option UInt32)) (c' : Catalog) : Prop :=
  ∀ log, ∃ log', ((actions.mapM perform).run c).run log = .ok (given, c') log'

/-- Actions lead to one catalog only, and give one list of answers only. -/
theorem Leads.unique {c c₁ c₂ : Catalog} {actions : List CatalogAction} {given₁ given₂ : List (Option UInt32)}
    (h₁ : Leads c actions given₁ c₁) (h₂ : Leads c actions given₂ c₂) : given₁ = given₂ ∧ c₁ = c₂ := by
  obtain ⟨log₁, hrun₁⟩ := h₁ []
  obtain ⟨log₂, hrun₂⟩ := h₂ []
  rw [hrun₁] at hrun₂
  cases hrun₂
  exact ⟨rfl, rfl⟩

theorem registered_append (actions later : List CatalogAction) :
    registered (actions ++ later) = registered actions ++ registered later :=
  List.flatMap_append

theorem insertAll_registered_cons (c : Catalog) (a : CatalogAction) (actions : List CatalogAction) :
    c.insertAll (registered (a :: actions)) = (c.insertAll a.signatures).insertAll (registered actions) :=
  c.insertAll_append _ _

theorem answers_append (c : Catalog) (actions later : List CatalogAction) :
    answers c (actions ++ later) = answers c actions ++ answers (c.insertAll (registered actions)) later := by
  induction actions generalizing c with
  | nil => rfl
  | cons a actions ih => rw [List.cons_append, answers, answers, ih, insertAll_registered_cons, List.cons_append]

/-- As long as its places fit in 32 bits, the catalog takes all signatures that actions register. -/
theorem leads_answers {c : Catalog} {actions : List CatalogAction}
    (h : (c.insertAll (registered actions)).signatures.length ≤ 0x100000000) :
    Leads c actions (answers c actions) (c.insertAll (registered actions)) := by
  induction actions generalizing c with
  | nil =>
    intro log
    exact ⟨log, rfl⟩
  | cons a actions ih =>
    intro log
    rw [insertAll_registered_cons] at h ⊢
    have hgrow := (c.insertAll a.signatures).length_le_length_insertAll (registered actions)
    obtain ⟨log₁, hfirst⟩ := run_perform log (Nat.le_trans hgrow h)
    obtain ⟨log₂, hrest⟩ := ih h log₁
    refine ⟨log₂, ?_⟩
    rw [List.mapM_cons, StateT.run_bind, EStateM.run_bind, hfirst]
    show (((actions.mapM perform >>= fun rest => pure (a.answer c :: rest)).run (c.insertAll a.signatures)).run log₁) = _
    rw [StateT.run_bind, EStateM.run_bind, hrest]
    rfl

/-- What some of the first actions leave in a new catalog is no more than what all of them leave. -/
theorem length_signatures_le_of_prefix {done actions : List CatalogAction} (h : done <+: actions) :
    (Catalog.empty.insertAll (registered done)).signatures.length ≤
      (Catalog.empty.insertAll (registered actions)).signatures.length := by
  obtain ⟨rest, rfl⟩ := h
  rw [registered_append, Catalog.insertAll_append]
  exact Catalog.length_le_length_insertAll _ _

/-- The number that a registration gives stands for its signature from then on. -/
theorem denotes_answer {c : Catalog} {s : Signature} (later : List Signature)
    (h : (c.insertAll (s :: later)).signatures.length ≤ 0x100000000) :
    (c.insertAll (s :: later)).Denotes (c.signatures.idxOf s).toUInt32 s := by
  have hgrow := (c.insert s).length_le_length_insertAll later
  have hplace : c.signatures.idxOf s < 0x100000000 :=
    Nat.lt_of_lt_of_le (c.idxOf_lt_length_insert s) (Nat.le_trans hgrow h)
  have hnumber : (c.signatures.idxOf s).toUInt32.toNat = c.signatures.idxOf s := UInt32.toNat_ofNat_of_lt' hplace
  apply Catalog.denotes_of_getElem?
  rw [hnumber]
  obtain ⟨added, hadded⟩ := (c.insert s).signatures_prefix_insertAll later
  show ((c.insert s).insertAll later).signatures[c.signatures.idxOf s]? = some s
  rw [← hadded, List.getElem?_append_left (c.idxOf_lt_length_insert s), c.getElem?_idxOf_insert s]

end CatalogAction

open CatalogAction

/-- Whatever is done with a new catalog, it lists the signatures that were registered, once each, in the order of their first
registration, and looking up any other fails. Each action is done in the catalog that the actions before it led to. It changes nothing
if all that it registers is there. The number that a registration gives stands for its signature right after it and after any further
actions. -/
theorem catalog_history {actions : List CatalogAction} (h : (registered actions).eraseDups.length ≤ 0x100000000) :
    ∃ given c, Leads .empty actions given c ∧
      c.signatures = (registered actions).eraseDups ∧
      (∀ s, c.signatures.count s = if s ∈ registered actions then 1 else 0) ∧
      (c.signatures.Pairwise fun s s' => (registered actions).idxOf s < (registered actions).idxOf s') ∧
      (∀ s, c.number s = .error (.unregisteredSignature s) ↔ s ∉ registered actions) ∧
      ∀ done a rest, actions = done ++ a :: rest → ∃ earlier c₁ answer, Leads .empty done earlier c₁ ∧ earlier ++ [answer] <+: given ∧
        ((∀ s ∈ a.signatures, s ∈ c₁.signatures) → ∀ log, (a.perform.run c₁).run log = .ok (answer, c₁) log) ∧
        ∀ s, a = .register s → ∃ i, answer = some i ∧ ∀ middle later, rest = middle ++ later →
          ∃ given₂ c₂, Leads .empty (done ++ a :: middle) given₂ c₂ ∧ c₂.Denotes i s := by
  have hlist : (Catalog.empty.insertAll (registered actions)).signatures = (registered actions).eraseDups :=
    Catalog.signatures_insertAll .empty _
  have hmem : ∀ s, s ∈ (Catalog.empty.insertAll (registered actions)).signatures ↔ s ∈ registered actions := by
    intro s
    rw [hlist, List.mem_eraseDups]
  -- nothing fails on the way: whatever the first actions leave fits, since what all of them leave does
  have hfits : ∀ done, done <+: actions → (Catalog.empty.insertAll (registered done)).signatures.length ≤ 0x100000000 := by
    intro done hdone
    have hle := length_signatures_le_of_prefix hdone
    rw [hlist] at hle
    exact Nat.le_trans hle h
  refine ⟨_, _, leads_answers (hfits actions (List.prefix_refl _)), hlist, ?_, ?_, ?_, ?_⟩
  · intro s
    rw [hlist]
    exact Catalog.count_eraseDups _ s
  · rw [hlist]
    exact Catalog.pairwise_idxOf_eraseDups _
  · intro s
    rw [Catalog.number_eq_unregistered, hmem]
  · rintro done a rest rfl
    have hdone := hfits done (List.prefix_append _ _)
    refine ⟨_, _, a.answer (Catalog.empty.insertAll (registered done)), leads_answers hdone, ?_, ?_, ?_⟩
    · rw [answers_append, answers]
      exact ⟨_, List.append_cons _ _ _ |>.symm⟩
    · intro hpresent log
      exact run_perform_of_subset log hdone hpresent
    · rintro s rfl
      refine ⟨_, rfl, ?_⟩
      rintro middle later rfl
      have hlater := hfits (done ++ register s :: middle) ⟨later, by simp⟩
      refine ⟨_, _, leads_answers hlater, ?_⟩
      rw [registered_append, Catalog.insertAll_append] at hlater ⊢
      exact denotes_answer _ hlater

/-- A signature is registered; then those of a call through the table and of one among its arguments; then that of the latter again. -/
def CatalogAction.sample : List CatalogAction :=
  [.register ⟨none, []⟩,
    .collect [.callIndirect ⟨none, [.i32]⟩ (.i32Const 0) [.callIndirect ⟨some .i32, [.f64]⟩ (.i32Const 1) [.f64Const ⟨0⟩]]],
    .register ⟨some .i32, [.f64]⟩]

/-- The last registration gives the number that its signature got when it was met in the argument, before the call around it. -/
theorem catalog_history_sample :
    ∃ given c, Leads .empty CatalogAction.sample given c ∧ c.signatures = [⟨none, []⟩, ⟨some .i32, [.f64]⟩, ⟨none, [.i32]⟩] ∧
      some 1 ∈ given ∧ c.number ⟨some .i32, [.f64]⟩ = .ok 1 ∧
      c.number ⟨some .f32, []⟩ = .error (.unregisteredSignature ⟨some .f32, []⟩) := by
  have hregistered : (registered CatalogAction.sample).eraseDups = [⟨none, []⟩, ⟨some .i32, [.f64]⟩, ⟨none, [.i32]⟩] := by
    decide +kernel
  have hfits : (registered CatalogAction.sample).eraseDups.length ≤ 0x100000000 := by
    rw [hregistered]
    decide
  obtain ⟨given, c, hleads, hlist, -, -, hmissing, hactions⟩ := catalog_history hfits
  rw [hregistered] at hlist
  have hnumber : c.number ⟨some .i32, [.f64]⟩ = .ok 1 := by
    rw [Catalog.number_eq_ok, hlist]
    rfl
  obtain ⟨earlier, c₁, answer, -, hgiven, -, hregister⟩ := hactions _ _ [] (List.append_cons [_] _ [_])
  obtain ⟨i, rfl, hlater⟩ := hregister _ rfl
  obtain ⟨given₂, c₂, hleads₂, -, hdenotes⟩ := hlater [] [] rfl
  obtain ⟨-, rfl⟩ := hleads.unique hleads₂
  obtain rfl : i = 1 := Except.ok.inj (hdenotes.symm.trans hnumber)
  refine ⟨given, c, hleads, hlist, hgiven.subset (by simp), hnumber, ?_⟩
  rw [hmissing, ← List.mem_eraseDups, hregistered]
  decide

end WasmBinary
