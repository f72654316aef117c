import Mathlib.Data.List.Perm.Subperm
import WasmBinary.Proofs.CatalogHistory
import WasmBinary.Proofs.CrossReferences
import WasmBinary.Proofs.Lowering

/-!
# The order of visits and the order of code

`Expr.visit` walks a tree and acts on each node after its operands; the registration of signatures is such a walk. It meets every
subexpression once, where a subexpression is told apart by its place in the tree (`Expr.at?`), and it meets the calls in the order of
the call instructions that an encoder writes. So the signatures of the calls that are met are those in the code, one by one
(`Expr.flatMap_indirectSignatures_eq_filterMap`): with every signature noted that is registered, or looked up (`noting`), the walk over a
body and the writing of its code leave the same notes.
-/

namespace WasmBinary

open ByteReader

/-! ## Visits -/

namespace Expr

/-- A visit is a loop over the nodes in post-order. -/
theorem visit_eq_forM {m : Type → Type} [Monad m] [LawfulMonad m] (action : Expr → m Unit) (e : Expr) :
    e.visit action = e.postorder.forM action := by
  induction e using childInduction with
  | step e ih =>
    have hchildren : e.children.forM (visitWhile (pure true) action) = e.children.forM fun c => c.postorder.forM action :=
      forM_congr ih
    rw [visit, visitWhile_eq, hchildren, forM_flatMap, postorder_eq]
    refine Eq.trans ?_ List.forM_append.symm
    simp

/-- The nodes that a visit meets, each noted after the visit of its operands. -/
def visited (e : Expr) : List Expr :=
  ((e.visit (m := StateT (List Expr) Id) (noting fun _ => pure ())).run []).run.2

/-- A visit meets the nodes in post-order. -/
theorem visited_eq (e : Expr) : e.visited = e.postorder := by
  rw [visited, visit_eq_forM, notes_forM_noting]
  rfl

end Expr

/-! ## Places -/

/-- Where a node has an operand: the field, and in a list the position. -/
inductive Slot where
  | body (i : Nat)
  | thenBody (i : Nat)
  | elseBody (i : Nat)
  | arg (i : Nat)
  | condition
  | value
  | address
  | left
  | right
  | selector
  deriving DecidableEq, Repr

namespace Expr

/-- The operand of a node in a slot. -/
def part? : Expr → Slot → Option Expr
  | block body, .body i | loop body, .body i => body[i]?
  | cond c _ _, .condition | brIf _ c, .condition => some c
  | cond _ thenBody _, .thenBody i => thenBody[i]?
  | cond _ _ elseBody, .elseBody i => elseBody[i]?
  | retValue v, .value | drop v, .value | setLocal _ v, .value | store _ _ _ v, .value => some v
  | load _ _ a, .address | store _ _ a _, .address => some a
  | binary _ l _, .left => some l
  | binary _ _ r, .right => some r
  | call _ args, .arg i | callIndirect _ _ args, .arg i => args[i]?
  | callIndirect _ selector _, .selector => some selector
  | _, _ => none

/-- The subexpression at a place, which is the way to it from the root. -/
def at? : Expr → List Slot → Option Expr
  | e, [] => some e
  | e, slot :: place => (e.part? slot).bind fun c => c.at? place

/-- The nodes are the subexpressions at all places of an expression: each place has one node, and it comes after those below it. -/
structure Listing (e : Expr) (nodes : List (List Slot × Expr)) : Prop where
  complete : ∀ place node, (place, node) ∈ nodes ↔ e.at? place = some node
  once : (nodes.map Prod.fst).Nodup
  after : nodes.Pairwise fun p q => ¬ p.1 <+: q.1

/-- The items of a list with their slots. -/
def slotted (slot : Nat → Slot) (es : List Expr) : List (Slot × Expr) :=
  es.zipIdx.map fun p => (slot p.2, p.1)

/-- The operands of a node with their slots, in the order in which they are evaluated. -/
def operands : Expr → List (Slot × Expr)
  | block body | loop body => slotted .body body
  | cond c thenBody elseBody => (.condition, c) :: (slotted .thenBody thenBody ++ slotted .elseBody elseBody)
  | brIf _ c => [(.condition, c)]
  | retValue v | drop v | setLocal _ v => [(.value, v)]
  | load _ _ a => [(.address, a)]
  | store _ _ a v => [(.address, a), (.value, v)]
  | binary _ l r => [(.left, l), (.right, r)]
  | call _ args => slotted .arg args
  | callIndirect _ selector args => slotted .arg args ++ [(.selector, selector)]
  | unreachable | nop | br _ | ret | i32Const _ | i64Const _ | f32Const _ | f64Const _ | getLocal _ => []

theorem map_snd_slotted (slot : Nat → Slot) (es : List Expr) : (slotted slot es).map Prod.snd = es := by
  rw [slotted, List.map_map]
  exact List.zipIdx_map_fst 0 es

theorem map_fst_slotted (slot : Nat → Slot) (es : List Expr) : (slotted slot es).map Prod.fst = (List.range es.length).map slot := by
  rw [slotted, List.map_map, List.range_eq_range', ← List.zipIdx_map_snd 0 es, List.map_map]
  rfl

theorem mem_slotted {slot : Nat → Slot} {es : List Expr} {s : Slot} {c : Expr} :
    (s, c) ∈ slotted slot es ↔ ∃ i, slot i = s ∧ es[i]? = some c := by
  simp only [slotted, List.mem_map, Prod.exists, List.mk_mem_zipIdx_iff_getElem?, Prod.mk.injEq]
  constructor
  · rintro ⟨c', i, hi, rfl, rfl⟩
    exact ⟨i, rfl, hi⟩
  · rintro ⟨i, rfl, hi⟩
    exact ⟨c, i, hi, rfl, rfl⟩

theorem map_snd_operands (e : Expr) : e.operands.map Prod.snd = e.children := by
  cases e <;> simp [operands, children, map_snd_slotted]

/-- The operands are what the slots hold. -/
theorem mem_operands {e : Expr} {s : Slot} {c : Expr} : (s, c) ∈ e.operands ↔ e.part? s = some c := by
  cases e <;> cases s <;> simp [operands, part?, mem_slotted, eq_comm]

/-- No slot holds two operands. -/
theorem nodup_slots (e : Expr) : (e.operands.map Prod.fst).Nodup := by
  have hslots : ∀ {slot : Nat → Slot}, Function.Injective slot → ∀ n, ((List.range n).map slot).Nodup :=
    fun hslot n => List.nodup_range.map hslot
  have hbody := hslots fun _ _ => Slot.body.inj
  have hthen := hslots fun _ _ => Slot.thenBody.inj
  have helse := hslots fun _ _ => Slot.elseBody.inj
  have harg := hslots fun _ _ => Slot.arg.inj
  cases e <;> simp [operands, map_fst_slotted, List.nodup_append, hbody, hthen, helse, harg]

/-- Every subexpression with its place, each node after its operands. -/
def located (e : Expr) : List (List Slot × Expr) :=
  e.operands.attach.flatMap (fun o => (located o.1.2).map fun p => (o.1.1 :: p.1, p.2)) ++ [([], e)]
termination_by sizeOf e
decreasing_by
  refine sizeOf_lt_of_mem_children ?_
  rw [← map_snd_operands]
  exact List.mem_map_of_mem o.2

theorem located_eq (e : Expr) :
    e.located = e.operands.flatMap (fun o => o.2.located.map fun p => (o.1 :: p.1, p.2)) ++ [([], e)] := by
  rw [located]
  conv_rhs => rw [← List.attach_map_subtype_val e.operands, List.flatMap_map]

/-- What holds of a node whenever it holds of what its slots hold holds of every expression. -/
theorem operandInduction {P : Expr → Prop} (step : ∀ e, (∀ o ∈ e.operands, P o.2) → P e) (e : Expr) : P e := by
  induction e using childInduction with
  | step e ih =>
    refine step e fun o ho => ih o.2 ?_
    rw [← map_snd_operands]
    exact List.mem_map_of_mem ho

/-- Without the places, the nodes are those in post-order. -/
theorem map_snd_located (e : Expr) : e.located.map Prod.snd = e.postorder := by
  induction e using operandInduction with
  | step e ih =>
    rw [located_eq, postorder_eq, ← map_snd_operands, List.flatMap_map, List.map_append, List.map_flatMap]
    congr 1
    refine List.flatMap_congr fun o ho => ?_
    rw [List.map_map, ← ih o ho]
    rfl

/-- The root has the empty place. -/
theorem mem_located_nil {e node : Expr} : ([], node) ∈ e.located ↔ node = e := by
  simp [located_eq e]

/-- A longer place starts at a slot and goes on in the operand that the slot holds. -/
theorem mem_located_cons {e node : Expr} {slot : Slot} {place : List Slot} :
    (slot :: place, node) ∈ e.located ↔ ∃ c, (slot, c) ∈ e.operands ∧ (place, node) ∈ c.located := by
  simp [located_eq e]

/-- Every place is listed with its subexpression. -/
theorem mem_located {place : List Slot} {e node : Expr} : (place, node) ∈ e.located ↔ e.at? place = some node := by
  induction place generalizing e with
  | nil =>
    rw [mem_located_nil, at?, Option.some_inj, eq_comm]
  | cons slot place ih =>
    rw [mem_located_cons, at?, Option.bind_eq_some_iff]
    refine exists_congr fun c => ?_
    rw [mem_operands, ih]

/-- No node comes before one at the same place or below it. -/
theorem pairwise_located (e : Expr) : e.located.Pairwise fun p q => ¬ p.1 <+: q.1 := by
  induction e using operandInduction with
  | step e ih =>
    rw [located_eq]
    refine List.pairwise_append.2 ⟨List.pairwise_flatMap.2 ⟨?_, ?_⟩, List.pairwise_singleton _ _, ?_⟩
    · intro o ho
      rw [List.pairwise_map]
      exact (ih o ho).imp fun h hprefix => h (List.cons_prefix_cons.1 hprefix).2
    · have hslots : e.operands.Pairwise fun o o' => o.1 ≠ o'.1 := List.pairwise_map.1 e.nodup_slots
      refine hslots.imp fun hne p hp q hq hprefix => ?_
      obtain ⟨p, -, rfl⟩ := List.mem_map.1 hp
      obtain ⟨q, -, rfl⟩ := List.mem_map.1 hq
      exact hne (List.cons_prefix_cons.1 hprefix).1
    · intro p hp q hq hprefix
      obtain rfl := List.mem_singleton.1 hq
      obtain ⟨o, -, hp⟩ := List.mem_flatMap.1 hp
      obtain ⟨p, -, rfl⟩ := List.mem_map.1 hp
      exact List.cons_ne_nil _ _ (List.prefix_nil.1 hprefix)

/-- Listing the nodes in post-order lists each subexpression once. -/
theorem listing_located (e : Expr) : e.Listing e.located where
  complete _ _ := mem_located
  once := by
    rw [List.Nodup, List.pairwise_map]
    exact e.pairwise_located.imp fun {p q} h (heq : p.1 = q.1) => h (heq ▸ List.prefix_refl _)
  after := e.pairwise_located

end Expr

/-! ## Look-ups -/

section LookUps

variable {m : Type → Type} [Monad m] [MonadLiftT WriteM m]

/-- Writes an instruction, with the number of a signature given by `number` and by nothing else: what is not an indirect call is
written under tables that have no signatures. -/
def Symbolic.writeWith (refs : References) (number : Signature → m UInt32) : Symbolic → m Unit
  | callIndirect s => do
    (WriteM.byte (Instr.callIndirect 0).opcode : WriteM Unit)
    let i ← number s
    (WriteM.leb i : WriteM Unit)
  | s => (s.write { refs with signatures := .empty } : WriteM Unit)

/-- Writes the instructions of an expression, with the numbers of signatures given by `number`. -/
def Expr.writeWith (refs : References) (number : Signature → m UInt32) (e : Expr) : m Unit :=
  e.flatten.forM (Symbolic.writeWith refs number)

end LookUps

/-- Looks up the number of a signature. -/
def References.lookUp (refs : References) (s : Signature) : WriteM UInt32 :=
  refs.signatures.number s

namespace Symbolic

/-- The signature that a call through the table carries. -/
def signature? : Symbolic → Option Signature
  | callIndirect s => some s
  | plain _ | call _ => none

/-- With each look-up noted, writing an instruction notes the signature that it carries. -/
theorem notes_writeWith (refs : References) (s : Symbolic) :
    Notes (s.writeWith refs (noting refs.lookUp)) (s.write refs) s.signature?.toList := by
  intro before
  cases s with
  | plain i => simp [writeWith, write, signature?]
  | call function =>
    have hcall : (call function).write { refs with signatures := .empty } = (call function).write refs := rfl
    simp [writeWith, signature?, hcall]
  | callIndirect s =>
    have hlookUp : refs.lookUp s = liftM (refs.signatures.number s) := rfl
    simp [writeWith, write, signature?, noting, hlookUp]

end Symbolic

namespace Expr

/-- The signatures in the code of an expression are those of its indirect calls, in the order of evaluation. -/
theorem filterMap_signature?_flatten (e : Expr) : e.flatten.filterMap Symbolic.signature? = e.calledSignatures := by
  -- only calls carry signatures, so this follows from the order of the calls
  have hcalls : (e.flatten.filter Symbolic.isCall).filterMap Symbolic.signature? = e.flatten.filterMap Symbolic.signature? := by
    rw [List.filterMap_filter]
    congr 1
    funext s
    cases s <;> rfl
  have hnode : (fun e : Expr => e.callSymbol?.bind Symbolic.signature?) = indirectSignature? := by
    funext e
    cases e <;> rfl
  rw [← hcalls, filter_isCall_flatten, List.filterMap_filterMap, hnode, ← indirectSignatures_eq, indirectSignatures]

/-- With each look-up noted, writing an expression notes the signatures of its indirect calls. -/
theorem notes_writeWith (refs : References) (e : Expr) :
    Notes (e.writeWith refs (noting refs.lookUp)) (e.write refs) e.calledSignatures := by
  have h := Notes.forM (Symbolic.notes_writeWith refs) e.flatten
  rwa [← List.filterMap_eq_flatMap_toList, filterMap_signature?_flatten] at h

/-- The signatures that a visit of each expression meets are those in their code. -/
theorem flatMap_indirectSignatures_eq_filterMap (es : List Expr) :
    es.flatMap indirectSignatures = (flattenAll es).filterMap Symbolic.signature? := by
  rw [flattenAll_eq_flatMap, List.filterMap_flatMap, funext filterMap_signature?_flatten, funext indirectSignatures_eq]

end Expr

/-! ## Calls -/

/-- The instruction is the call that a node stands for under the numbers of `refs`. -/
inductive References.Calls (refs : References) : Expr → Instr → Prop
  | callImport {name : String} {args : List Expr} {i : UInt32} (hr : refs.revision = .v11) (hi : refs.importNumbers[name]? = some i) :
    Calls refs (.call name args) (.callImport i)
  | call {name : String} {args : List Expr} {i : UInt32} (hr : refs.revision = .v11 → refs.importNumbers[name]? = none)
    (hi : refs.functionNumbers[name]? = some i) : Calls refs (.call name args) (.call i)
  | callIndirect {s : Signature} {selector : Expr} {args : List Expr} {t : UInt32}
    (ht : refs.signatures.signatures[t.toNat]? = some s) : Calls refs (.callIndirect s selector args) (.callIndirect t)

section Calls

variable {refs : References} {e : Expr} {bytes : List UInt8}

theorem Symbolic.isCall_iff_of_resolve {s : Symbolic} {i : Instr} (hs : s.Proper) (h : s.resolve refs = .ok i) :
    s.isCall = true ↔ i.isCall = true := by
  cases s with
  | plain j =>
    obtain rfl := Except.ok.inj h
    have hj : j.isCall = false := hs
    simp [isCall, hj]
  | call name =>
    rcases References.callInstr_eq_ok.1 h with ⟨-, k, -, rfl⟩ | ⟨-, k, -, rfl⟩ <;> exact Iff.rfl
  | callIndirect s =>
    obtain ⟨t, -, rfl⟩ := EncodeError.map_eq_ok.1 h
    exact Iff.rfl

theorem References.calls_of_resolve {s : Symbolic} {i : Instr} (hs : e.callSymbol? = some s) (h : s.resolve refs = .ok i) :
    refs.Calls e i := by
  cases e with
  | call name args =>
    obtain rfl := Option.some.inj hs
    rcases References.callInstr_eq_ok.1 h with ⟨hr, k, hk, rfl⟩ | ⟨hr, k, hk, rfl⟩
    · exact .callImport hr hk
    · exact .call hr hk
  | callIndirect s' selector args =>
    obtain rfl := Option.some.inj hs
    obtain ⟨t, ht, rfl⟩ := EncodeError.map_eq_ok.1 h
    exact .callIndirect (Catalog.number_eq_ok.1 ht)
  | _ => nomatch hs

namespace Expr

/-- An expression that is written is written as code that fills its layout. -/
theorem exists_filled (h : (e.write refs).toBytes = .ok bytes) :
    ∃ code, Filled refs e.flatten code ∧ toEnd Instr.read bytes = some code := by
  rw [toBytes_write] at h
  obtain ⟨code, hcode, rfl⟩ := EncodeError.map_eq_ok.1 h
  exact ⟨code, EncodeError.mapM_eq_ok.1 hcode, Instr.toEnd_bytes code⟩

/-- The calls in the code of an expression are its call nodes, in the order in which a visit meets them. -/
theorem forall₂_calls {code : List Instr} (h : Filled refs e.flatten code) :
    List.Forall₂ refs.Calls (e.visited.filter isCall) (code.filter Instr.isCall) := by
  rw [← flattenAll_singleton] at h
  have hcalls := forall₂_callNodes (fun s i => Symbolic.isCall_iff_of_resolve) h
  rw [List.flatMap_singleton, ← visited_eq] at hcalls
  refine hcalls.imp fun node i hi => ?_
  obtain ⟨s, hs, hresolve⟩ := hi
  exact References.calls_of_resolve hs hresolve

/-- Every signature that is looked up has a number. -/
theorem exists_number_of_write (h : (e.write refs).toBytes = .ok bytes) {s : Signature} (hs : s ∈ e.calledSignatures) :
    ∃ t : UInt32, refs.signatures.signatures[t.toNat]? = some s := by
  obtain ⟨code, hcode, -⟩ := exists_filled h
  rw [← filterMap_signature?_flatten] at hs
  obtain ⟨symbol, hsymbol, hsignature⟩ := List.mem_filterMap.1 hs
  obtain ⟨k, hk⟩ := List.mem_iff_getElem?.1 hsymbol
  obtain ⟨i, -, hi⟩ := forall₂_getElem? hcode hk
  cases symbol with
  | callIndirect s' =>
    obtain rfl := Option.some.inj hsignature
    obtain ⟨t, ht, -⟩ := EncodeError.map_eq_ok.1 hi
    exact ⟨t, Catalog.number_eq_ok.1 ht⟩
  | plain | call => nomatch hsignature

end Expr

end Calls

/-- Signatures that have numbers in one catalog can all be registered in a new one. -/
theorem CatalogM.exists_run_registerAll {c : Catalog} {ss : List Signature}
    (h : ∀ s ∈ ss, ∃ t : UInt32, c.signatures[t.toNat]? = some s) (log : Log) :
    ∃ catalog log', ((registerAll ss).run .empty).run log = .ok ((), catalog) log' := by
  -- they are among the first 2 ^ 32 entries of that catalog, so there are no more distinct ones
  have hsignatures := Catalog.empty.signatures_insertAll ss
  have hsub : (Catalog.empty.insertAll ss).signatures ⊆ c.signatures.take 0x100000000 := by
    intro s hs
    rw [hsignatures, List.mem_eraseDups] at hs
    obtain ⟨t, ht⟩ := h s hs
    rw [← List.getElem?_take_of_lt t.toNat_lt] at ht
    exact List.mem_of_getElem? ht
  have hlength : (Catalog.empty.insertAll ss).signatures.length ≤ 0x100000000 :=
    Nat.le_trans ((Catalog.empty.insertAll ss).nodup.subperm hsub).length_le (List.length_take_le _ _)
  exact ⟨_, run_registerAll_of_le log hlength⟩

/-- For expressions that the encoder takes, a visit of each meets every subexpression once, and the calls among them one by one as the
call instructions of its bytes. With each look-up noted, writing the expressions leaves the same notes, in order and with repetitions,
as the registration of their signatures in a new catalog, which succeeds, with each registration noted. These are the signatures of the
calls that are visited, and those in the code that is written. -/
theorem encode_visitOrder {refs : References} {es : List Expr} {parts : List (List UInt8)}
    (h : (es.mapM (standardEncoder.encode refs)).run () = .ok parts ()) :
    List.Forall₂ (fun e bytes => (∃ nodes, e.Listing nodes ∧ nodes.map Prod.snd = e.visited) ∧
        ∃ code, toEnd Instr.read bytes = some code ∧
          List.Forall₂ refs.Calls (e.visited.filter Expr.isCall) (code.filter Instr.isCall)) es parts ∧
      (∀ buffer : Buffer, (es.forM (Expr.write refs)).run buffer = .ok () (buffer ++ parts.flatten)) ∧
      Notes (es.forM (Expr.writeWith refs (noting refs.lookUp))) (es.forM (Expr.write refs)) (Expr.calledSignaturesAll es) ∧
      (∀ log, ∃ catalog log', ((es.forM CatalogM.registerCalls).run .empty).run log = .ok ((), catalog) log') ∧
      Notes (es.forM (Expr.collect (noting CatalogM.tryRegister))) (es.forM CatalogM.registerCalls) (Expr.calledSignaturesAll es) ∧
      es.flatMap Expr.indirectSignatures = Expr.calledSignaturesAll es ∧
      es.flatMap Expr.indirectSignatures = (Expr.flattenAll es).filterMap Symbolic.signature? := by
  rw [mapM_encode_eq_ok] at h
  have hparts := EncodeError.mapM_eq_ok.1 h
  refine ⟨?_, fun buffer => ?_, ?_, fun log => ?_, ?_, Expr.flatMap_indirectSignatures es,
    Expr.flatMap_indirectSignatures_eq_filterMap es⟩
  · refine hparts.imp fun e bytes he => ⟨⟨e.located, e.listing_located, ?_⟩, ?_⟩
    · rw [e.map_snd_located, e.visited_eq]
    · obtain ⟨code, hcode, hread⟩ := Expr.exists_filled he
      exact ⟨code, hread, Expr.forall₂_calls hcode⟩
  · refine WriteM.run_of_toBytes ?_ buffer
    rw [WriteM.toBytes_forM, h]
    rfl
  · rw [Expr.calledSignaturesAll_eq_flatMap]
    exact Notes.forM (Expr.notes_writeWith refs) es
  · have hnumbers : ∀ s ∈ es.flatMap Expr.indirectSignatures, ∃ t : UInt32, refs.signatures.signatures[t.toNat]? = some s := by
      intro s hs
      obtain ⟨e, he, hs⟩ := List.mem_flatMap.1 hs
      obtain ⟨k, hk⟩ := List.mem_iff_getElem?.1 he
      obtain ⟨bytes, -, hbytes⟩ := forall₂_getElem? hparts hk
      rw [Expr.indirectSignatures_eq] at hs
      exact Expr.exists_number_of_write hbytes hs
    obtain ⟨catalog, log', hrun⟩ := CatalogM.exists_run_registerAll hnumbers log
    exact ⟨catalog, log', (CatalogM.agree_forM_registerCalls es).run_eq_ok.2 hrun⟩
  · rw [← Expr.flatMap_indirectSignatures]
    exact Notes.forM CatalogM.notes_collect es

/-- Two calls through the table with the same signature, the first one with calls in its argument and its selector. -/
def Expr.twiceCalled : List Expr :=
  [.callIndirect ⟨none, [.i32]⟩ (.call "main" []) [.call "log" [.i64Const (-15)]],
    .drop (.callIndirect ⟨none, [.i32]⟩ (.i32Const 3) [.getLocal 128])]

/-- The signature is registered twice and looked up twice. -/
theorem encode_visitOrder_twiceCalled :
    ∃ parts, (Expr.twiceCalled.mapM (standardEncoder.encode .sample)).run () = .ok parts () ∧
      List.Forall₂ (fun e bytes => ∃ code, toEnd Instr.read bytes = some code ∧
        List.Forall₂ References.sample.Calls (e.visited.filter Expr.isCall) (code.filter Instr.isCall)) Expr.twiceCalled parts ∧
      Notes (Expr.twiceCalled.forM (Expr.writeWith .sample (noting References.sample.lookUp)))
        (Expr.twiceCalled.forM (Expr.write .sample)) [⟨none, [.i32]⟩, ⟨none, [.i32]⟩] ∧
      Notes (Expr.twiceCalled.forM (Expr.collect (noting CatalogM.tryRegister))) (Expr.twiceCalled.forM CatalogM.registerCalls)
        [⟨none, [.i32]⟩, ⟨none, [.i32]⟩] := by
  have hok : (Expr.twiceCalled.mapM fun e => (Expr.write .sample e).toBytes).isOk = true := by decide +kernel
  obtain ⟨parts, hparts⟩ := EncodeError.exists_of_isOk hok
  have hencode := mapM_encode_eq_ok.2 hparts
  obtain ⟨hvisits, -, hlookUps, -, hregistered, -⟩ := encode_visitOrder hencode
  exact ⟨parts, hencode, hvisits.imp fun e bytes h => h.2, hlookUps, hregistered⟩

end WasmBinary
