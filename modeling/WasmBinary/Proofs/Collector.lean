import WasmBinary.Proofs.Catalog

/-!
# What a collector registers

A collector walks over an expression and registers the signature of each indirect call after those of its operands. As long as there is no
failure, it registers the signatures of the calls in the order in which they happen; after a failure it does a little more than a loop over
these signatures would, since the calls around the one that failed are still registered (`run_visitWhile_of_failed`), but it fails with the
same error (`Agree`). So the
catalog of a module is what registering all its uses of signatures leaves: for each function its own signature, then those of the indirect
calls in its body (`run_catalog`). This fails exactly for a catalog that outgrows 32 bits (`run_catalog_of_le`, `run_catalog_of_lt`).

To see what a collector registers, each signature can be noted before it is registered (`noting`), which changes nothing else (`Notes`).
-/

namespace WasmBinary

/-! ## Notes -/

section Notes

variable {α β : Type} {m : Type → Type} [Monad m]

/-- The action, with its argument noted. -/
def noting (action : α → m β) (a : α) : StateT (List α) m β := do
  modify (· ++ [a])
  action a

/-- The computation with notes does what the other one does, and `list` is what it notes. -/
def Notes (computation : StateT (List α) m Unit) (plain : m Unit) (list : List α) : Prop :=
  ∀ before, computation.run before = (fun _ => ((), before ++ list)) <$> plain

variable [LawfulMonad m]

theorem notes_noting (action : α → m Unit) (a : α) : Notes (noting action a) (action a) [a] := by
  intro before
  simp [noting]

namespace Notes

theorem pure : Notes (Pure.pure () : StateT (List α) m Unit) (Pure.pure ()) [] := by
  intro before
  simp

theorem seq {first second : StateT (List α) m Unit} {plain plain' : m Unit} {list list' : List α} (h : Notes first plain list)
    (h' : Notes second plain' list') : Notes (do first; second) (do plain; plain') (list ++ list') := by
  intro before
  rw [StateT.run_bind, h before]
  simp [h' (before ++ list)]

/-- What the steps of a loop note is noted one after another. -/
theorem forM {γ : Type} {step : γ → StateT (List α) m Unit} {plain : γ → m Unit} {list : γ → List α}
    (h : ∀ c, Notes (step c) (plain c) (list c)) (cs : List γ) : Notes (cs.forM step) (cs.forM plain) (cs.flatMap list) := by
  induction cs with
  | nil => exact pure
  | cons c cs ih => exact (h c).seq ih

end Notes

/-- A loop that notes what it acts on notes all of it. -/
theorem notes_forM_noting (action : α → m Unit) (as : List α) : Notes (as.forM (noting action)) (as.forM action) as := by
  have h := Notes.forM (notes_noting action) as
  rwa [List.flatMap_singleton'] at h

end Notes

namespace CatalogM

variable {α β : Type}

/-! ## Agreement -/

/-- Both computations succeed and do the same, or both fail with the same error; what they log before a failure may differ. -/
def Agree (x y : CatalogM α) : Prop :=
  ∀ c log, (∃ p log', (x.run c).run log = .ok p log' ∧ (y.run c).run log = .ok p log') ∨
    ∃ e log₁ log₂, (x.run c).run log = .error e log₁ ∧ (y.run c).run log = .error e log₂

namespace Agree

theorem refl (x : CatalogM α) : Agree x x := by
  intro c log
  cases h : (x.run c).run log with
  | ok p log' => exact .inl ⟨p, log', rfl, rfl⟩
  | error e log' => exact .inr ⟨e, log', log', rfl, rfl⟩

theorem bind {x y : CatalogM α} {f g : α → CatalogM β} (h : Agree x y) (h' : ∀ a, Agree (f a) (g a)) :
    Agree (x >>= f) (y >>= g) := by
  intro c log
  rw [StateT.run_bind, StateT.run_bind, EStateM.run_bind, EStateM.run_bind]
  rcases h c log with ⟨p, log', hx, hy⟩ | ⟨e, log₁, log₂, hx, hy⟩
  · rw [hx, hy]
    exact h' p.1 p.2 log'
  · rw [hx, hy]
    exact .inr ⟨e, log₁, log₂, rfl, rfl⟩

theorem forM {f g : α → CatalogM Unit} (h : ∀ a, Agree (f a) (g a)) (items : List α) : Agree (items.forM f) (items.forM g) := by
  induction items with
  | nil => exact refl _
  | cons a items ih => exact (h a).bind fun _ => ih

variable {x y : CatalogM α} {c : Catalog} {log : Log}

theorem run_eq_ok (h : Agree x y) {p : α × Catalog} {log' : Log} : (x.run c).run log = .ok p log' ↔ (y.run c).run log = .ok p log' := by
  rcases h c log with ⟨q, log₁, hx, hy⟩ | ⟨e, log₁, log₂, hx, hy⟩
  · rw [hx, hy]
  · rw [hx, hy]
    exact ⟨fun h => (nomatch h), fun h => (nomatch h)⟩

theorem exists_error (h : Agree x y) {e : EncodeError} {log' : Log} (he : (y.run c).run log = .error e log') :
    ∃ log₁, (x.run c).run log = .error e log₁ := by
  rcases h c log with ⟨q, log₁, hx, hy⟩ | ⟨e', log₁, log₂, hx, hy⟩
  · rw [he] at hy
    nomatch hy
  · rw [he] at hy
    cases hy
    exact ⟨log₁, hx⟩

end Agree

/-- Signatures in a row are registered one list after the other. -/
theorem registerAll_append (ss ts : List Signature) : registerAll (ss ++ ts) = (do registerAll ss; registerAll ts) :=
  List.forM_append

/-! ## Collectors -/

/-- The walk registers the signatures one by one up to the first failure, and keeps that failure. With its registrations noted, it does the
same, and has all signatures on its notes unless there is a failure. -/
structure Collects (walk : CollectorT CatalogM Unit) (noted : CollectorT (StateT (List Signature) CatalogM) Unit)
    (ss : List Signature) : Prop where
  /-- If there was a failure before, it is kept. -/
  kept (e : EncodeError) (c : Catalog) (log : Log) (notes : List Signature) :
    ∃ c' log' notes', ((walk.run (some e)).run c).run log = .ok (((), some e), c') log' ∧
      (((noted.run (some e)).run notes).run c).run log = .ok ((((), some e), notes'), c') log'
  /-- If there was none, all goes as in the registration of the signatures one by one. -/
  first (c : Catalog) (log : Log) (notes : List Signature) :
    (∃ c' log', ((registerAll ss).run c).run log = .ok ((), c') log' ∧
        ((walk.run none).run c).run log = .ok (((), none), c') log' ∧
        (((noted.run none).run notes).run c).run log = .ok ((((), none), notes ++ ss), c') log') ∨
      ∃ e log₁ c' log' notes', ((registerAll ss).run c).run log = .error e log₁ ∧
        ((walk.run none).run c).run log = .ok (((), some e), c') log' ∧
        (((noted.run none).run notes).run c).run log = .ok ((((), some e), notes'), c') log'

namespace Collects

variable {walk walk' : CollectorT CatalogM Unit} {noted noted' : CollectorT (StateT (List Signature) CatalogM) Unit}
  {ss ss' : List Signature}

theorem pure : Collects (Pure.pure ()) (Pure.pure ()) [] where
  kept _ c log notes := ⟨c, log, notes, rfl, rfl⟩
  first c log notes := .inl ⟨c, log, rfl, rfl, by rw [List.append_nil]; rfl⟩

theorem seq (h : Collects walk noted ss) (h' : Collects walk' noted' ss') :
    Collects (do walk; walk') (do noted; noted') (ss ++ ss') where
  kept e c log notes := by
    obtain ⟨c₁, log₁, notes₁, hwalk, hnoted⟩ := h.kept e c log notes
    obtain ⟨c₂, log₂, notes₂, hwalk', hnoted'⟩ := h'.kept e c₁ log₁ notes₁
    refine ⟨c₂, log₂, notes₂, ?_, ?_⟩
    · simp only [StateT.run_bind, EStateM.run_bind, hwalk, hwalk']
    · simp only [StateT.run_bind, EStateM.run_bind, hnoted, hnoted']
  first c log notes := by
    rw [registerAll_append]
    simp only [StateT.run_bind, EStateM.run_bind]
    rcases h.first c log notes with ⟨c₁, log₁, hall, hwalk, hnoted⟩ | ⟨e, log₁, c₁, log₂, notes₁, hall, hwalk, hnoted⟩
    · rw [hall, hwalk, hnoted, ← List.append_assoc]
      exact h'.first c₁ log₁ (notes ++ ss)
    · obtain ⟨c₂, log₃, notes₂, hwalk', hnoted'⟩ := h'.kept e c₁ log₂ notes₁
      rw [hall, hwalk, hnoted]
      exact .inr ⟨e, log₁, c₂, log₃, notes₂, rfl, hwalk', hnoted'⟩

theorem forM {γ : Type} {step : γ → CollectorT CatalogM Unit} {noted : γ → CollectorT (StateT (List Signature) CatalogM) Unit}
    {list : γ → List Signature} {items : List γ} (h : ∀ a ∈ items, Collects (step a) (noted a) (list a)) :
    Collects (items.forM step) (items.forM noted) (items.flatMap list) := by
  induction items with
  | nil => exact pure
  | cons a items ih =>
    obtain ⟨ha, hitems⟩ := List.forall_mem_cons.1 h
    exact ha.seq (ih hitems)

/-- What is not done after a failure. -/
theorem unfailing (h : Collects walk noted ss) :
    Collects (do if ← CollectorT.unfailing then walk) (do if ← CollectorT.unfailing then noted) ss where
  kept _ c log notes := ⟨c, log, notes, rfl, rfl⟩
  first := h.first

end Collects

theorem run_noting_tryRegister (s : Signature) (notes : List Signature) (c : Catalog) (log : Log) :
    (((noting tryRegister s).run notes).run c).run log =
      .ok ((narrow "signature index" (c.signatures.idxOf s), notes ++ [s]), c.insert s) (logAfter s c log) := by
  have hnoting : (noting tryRegister s).run notes = (fun number => (number, notes ++ [s])) <$> tryRegister s := by
    simp [noting]
  rw [hnoting, run_map, run_tryRegister]

/-- A signature that is collected is added, whatever failed before and whether or not it has a number. -/
theorem run_keep_tryRegister (s : Signature) (failure : Option EncodeError) (c : Catalog) (log : Log) :
    (((do CollectorT.keep (← tryRegister s) : CollectorT CatalogM Unit).run failure).run c).run log =
      (((CollectorT.keep (narrow "signature index" (c.signatures.idxOf s)) : CollectorT CatalogM Unit).run failure).run
        (c.insert s)).run (logAfter s c log) := by
  simp [EStateM.run_bind, run_tryRegister]

theorem run_keep_noting (s : Signature) (failure : Option EncodeError) (notes : List Signature) (c : Catalog) (log : Log) :
    ((((do CollectorT.keep (← noting tryRegister s) : CollectorT (StateT (List Signature) CatalogM) Unit).run failure).run
      notes).run c).run log =
      ((((CollectorT.keep (narrow "signature index" (c.signatures.idxOf s)) :
        CollectorT (StateT (List Signature) CatalogM) Unit).run failure).run (notes ++ [s])).run (c.insert s)).run
        (logAfter s c log) := by
  simp [EStateM.run_bind, run_noting_tryRegister]

/-- A signature is registered, and a failure is kept if it is the first. -/
theorem collects_keep (s : Signature) :
    Collects (do CollectorT.keep (← tryRegister s)) (do CollectorT.keep (← noting tryRegister s)) [s] := by
  constructor
  · intro e c log notes
    rw [run_keep_tryRegister, run_keep_noting]
    cases narrow "signature index" (c.signatures.idxOf s) with
    | ok i => exact ⟨_, _, _, rfl, rfl⟩
    | error e' => exact ⟨_, _, _, rfl, rfl⟩
  · intro c log notes
    rw [run_registerAll_cons, run_keep_tryRegister, run_keep_noting]
    cases narrow "signature index" (c.signatures.idxOf s) with
    | ok i => exact .inl ⟨_, _, rfl, rfl, rfl⟩
    | error e => exact .inr ⟨e, _, _, _, _, rfl, rfl, rfl⟩

/-- At a node that is an indirect call, its signature is registered. -/
theorem collects_registerNode (e : Expr) :
    Collects (e.registerNode tryRegister) (e.registerNode (noting tryRegister)) e.indirectSignature?.toList := by
  unfold Expr.registerNode
  cases e.indirectSignature? with
  | none => exact .pure
  | some s => exact collects_keep s

/-- The walk over an expression registers the signatures of its indirect calls. -/
theorem collects_visitWhile (e : Expr) :
    Collects (e.visitWhile CollectorT.unfailing (Expr.registerNode tryRegister))
      (e.visitWhile CollectorT.unfailing (Expr.registerNode (noting tryRegister))) e.indirectSignatures := by
  induction e using Expr.childInduction with
  | step e ih =>
    rw [Expr.indirectSignatures_eq_children, Expr.visitWhile_eq, Expr.visitWhile_eq]
    exact ((Collects.forM ih).seq (collects_registerNode e)).unfailing

/-- A failure is no reason to leave out the calls around it: where the operands of an indirect call end in a failure, its own signature is
registered all the same, and the failure stays the one of the operands. -/
theorem run_visitWhile_of_failed {e : Expr} {s : Signature} (hs : e.indirectSignature? = some s) {c c' : Catalog} {log log' : Log}
    {failure : EncodeError}
    (h : (((e.children.forM (Expr.visitWhile CollectorT.unfailing (Expr.registerNode tryRegister)) :
      CollectorT CatalogM Unit).run none).run c).run log = .ok (((), some failure), c') log') :
    (((e.visitWhile CollectorT.unfailing (Expr.registerNode tryRegister)).run none).run c).run log =
      .ok (((), some failure), c'.insert s) (logAfter s c' log') := by
  have hnode : e.registerNode tryRegister = (do CollectorT.keep (← tryRegister s) : CollectorT CatalogM Unit) := by
    rw [Expr.registerNode, hs]
    rfl
  have hkept : (((e.registerNode tryRegister).run (some failure)).run c').run log' =
      .ok (((), some failure), c'.insert s) (logAfter s c' log') := by
    rw [hnode, run_keep_tryRegister]
    cases narrow "signature index" (c'.signatures.idxOf s) <;> rfl
  rw [Expr.visitWhile_eq]
  -- nothing has failed yet when the visit comes to the call itself
  show (((do
    e.children.forM (Expr.visitWhile CollectorT.unfailing (Expr.registerNode tryRegister))
    e.registerNode tryRegister : CollectorT CatalogM Unit).run none).run c).run log = _
  simp only [StateT.run_bind, EStateM.run_bind, h, hkept]

/-- A collector fails if registering the signatures one by one does, and then with the same error. -/
theorem Collects.agree_finish {walk : CollectorT CatalogM Unit} {noted : CollectorT (StateT (List Signature) CatalogM) Unit}
    {ss : List Signature} (h : Collects walk noted ss) : Agree walk.finish (registerAll ss) := by
  intro c log
  unfold CollectorT.finish
  rw [StateT.run_bind, EStateM.run_bind]
  rcases h.first c log [] with ⟨c', log', hall, hwalk, -⟩ | ⟨e, log₁, c', log', notes, hall, hwalk, -⟩
  · rw [hall, hwalk]
    exact .inl ⟨_, _, rfl, rfl⟩
  · rw [hall, hwalk]
    exact .inr ⟨_, _, _, rfl, rfl⟩

/-- With its registrations noted, a collector does the same, and notes all signatures. -/
theorem Collects.notes_finish {walk : CollectorT CatalogM Unit} {noted : CollectorT (StateT (List Signature) CatalogM) Unit}
    {ss : List Signature} (h : Collects walk noted ss) : Notes noted.finish walk.finish ss := by
  intro notes
  funext c log
  show ((noted.finish.run notes).run c).run log = (((fun _ => ((), notes ++ ss)) <$> walk.finish).run c).run log
  rw [run_map]
  unfold CollectorT.finish
  simp only [StateT.run_bind, EStateM.run_bind]
  rcases h.first c log notes with ⟨c', log', -, hwalk, hnoted⟩ | ⟨e, log₁, c', log', notes', -, hwalk, hnoted⟩
  · rw [hwalk, hnoted]
    rfl
  · rw [hwalk, hnoted]
    rfl

/-- Collecting from an expression comes to the registration of the signatures of its indirect calls. -/
theorem agree_registerCalls (e : Expr) : Agree (registerCalls e) (registerAll e.indirectSignatures) :=
  (collects_visitWhile e).agree_finish

/-- With each registration noted, collecting from an expression notes the signatures of its indirect calls. -/
theorem notes_collect (e : Expr) : Notes (e.collect (noting tryRegister)) (registerCalls e) e.indirectSignatures :=
  (collects_visitWhile e).notes_finish

theorem agree_forM_registerCalls (es : List Expr) :
    Agree (es.forM registerCalls) (registerAll (es.flatMap Expr.indirectSignatures)) := by
  rw [← forM_registerAll]
  exact .forM agree_registerCalls es

/-- A function registers its own signature and those of the indirect calls in its body. -/
theorem agree_registerFunction (f : Function) :
    Agree (registerFunction f) (registerAll (f.signature :: f.body.flatMap Expr.indirectSignatures)) :=
  (Agree.refl (discard (register f.signature))).bind fun _ => agree_forM_registerCalls f.body

end CatalogM

/-! ## Modules -/

namespace Module

/-- Every use of a signature by a module: each function's own, then those of the indirect calls in its body. -/
def signatureUses (m : Module) : List Signature :=
  m.functions.toList.flatMap fun f => f.signature :: f.body.flatMap Expr.indirectSignatures

theorem agree_registerFunctions (m : Module) :
    CatalogM.Agree (m.functions.toList.forM CatalogM.registerFunction) (CatalogM.registerAll m.signatureUses) := by
  unfold signatureUses
  rw [← CatalogM.forM_registerAll]
  exact .forM CatalogM.agree_registerFunction _

variable {m : Module} {c : Catalog} {log log' : Log}

/-- The catalog of a module is what the registration of all its uses of signatures leads to. -/
theorem run_catalog_eq_ok :
    m.catalog.run log = .ok c log' ↔ ((CatalogM.registerAll m.signatureUses).run .empty).run log = .ok ((), c) log' := by
  rw [← m.agree_registerFunctions.run_eq_ok]
  unfold catalog
  constructor
  · intro h
    obtain ⟨⟨_, c'⟩, log₁, hrun, h⟩ := EncodeError.run_bind_eq_ok.1 h
    cases h
    exact hrun
  · intro h
    exact EncodeError.run_bind_eq_ok.2 ⟨_, _, h, rfl⟩

theorem signatures_insertAll_signatureUses (m : Module) :
    (Catalog.empty.insertAll m.signatureUses).signatures = m.signatureUses.eraseDups := by
  rw [Catalog.signatures_insertAll]
  rfl

/-- The catalog of a module lists the first occurrences among its uses of signatures. -/
theorem run_catalog (h : m.catalog.run log = .ok c log') : c.signatures = m.signatureUses.eraseDups := by
  rw [CatalogM.run_registerAll (run_catalog_eq_ok.1 h), signatures_insertAll_signatureUses]

/-- A module whose distinct signatures can be numbered in 32 bits has a catalog. -/
theorem run_catalog_of_le (log : Log) (h : m.signatureUses.eraseDups.length ≤ 0x100000000) :
    ∃ c log', m.catalog.run log = .ok c log' := by
  rw [← signatures_insertAll_signatureUses] at h
  obtain ⟨log', hrun⟩ := CatalogM.run_registerAll_of_le log h
  exact ⟨_, log', run_catalog_eq_ok.2 hrun⟩

/-- A module with more distinct signatures has none. -/
theorem run_catalog_of_lt (log : Log) (h : 0x100000000 < m.signatureUses.eraseDups.length) :
    ∃ log', m.catalog.run log = .error (.outOfRange "signature index" 0x100000000) log' := by
  rw [← signatures_insertAll_signatureUses] at h
  obtain ⟨log₁, hrun⟩ := CatalogM.run_registerAll_of_lt log (Nat.zero_le _) h
  obtain ⟨log', hfunctions⟩ := m.agree_registerFunctions.exists_error hrun
  exact ⟨log', EncodeError.run_bind_eq_error.2 (.inl hfunctions)⟩

end Module

end WasmBinary
