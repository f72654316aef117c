import Mathlib.Data.List.Induction
import Mathlib.Data.List.Nodup
import WasmBinary.Proofs.Contents

/-!
# The type section

The signatures that a module uses, in the order in which they are met: for each function its own, then those of the calls through the
table in its body, each call after the calls in its operands (`Module.discovered`). The type section of a rendered module lists the
first occurrences among them, so its entries are distinct, are the signatures in use, and stand in the order of their discovery.
-/

namespace WasmBinary

open ByteReader

variable {σ : Type}

/-! ## Signatures in the order of evaluation -/

namespace Expr

mutual

/-- The signatures of the calls through the table in an expression, with repetitions, each call after those in its operands. -/
def calledSignatures : Expr → List Signature
  | block body | loop body => calledSignaturesAll body
  | cond c thenBody elseBody => calledSignatures c ++ (calledSignaturesAll thenBody ++ calledSignaturesAll elseBody)
  | brIf _ v | retValue v | drop v | setLocal _ v | load _ _ v => calledSignatures v
  | store _ _ l r | binary _ l r => calledSignatures l ++ calledSignatures r
  | call _ args => calledSignaturesAll args
  | callIndirect s selector args => calledSignaturesAll args ++ (calledSignatures selector ++ [s])
  | unreachable | nop | br _ | ret | i32Const _ | i64Const _ | f32Const _ | f64Const _ | getLocal _ => []

/-- The signatures of the calls through the table in a sequence of expressions. -/
def calledSignaturesAll : List Expr → List Signature
  | [] => []
  | e :: es => calledSignatures e ++ calledSignaturesAll es

end

theorem calledSignaturesAll_eq_flatMap (es : List Expr) : calledSignaturesAll es = es.flatMap calledSignatures := by
  induction es with
  | nil => rfl
  | cons e es ih => rw [calledSignaturesAll, ih, List.flatMap_cons]

/-- Walking an expression in post-order meets the signatures in the order of evaluation. -/
theorem indirectSignatures_eq (e : Expr) : e.indirectSignatures = e.calledSignatures := by
  induction e using childInduction with
  | step e ih =>
    rw [indirectSignatures_eq_children, List.flatMap_congr ih]
    cases e <;> simp [children, indirectSignature?, calledSignatures, calledSignaturesAll_eq_flatMap]

theorem flatMap_indirectSignatures (es : List Expr) : es.flatMap indirectSignatures = calledSignaturesAll es := by
  rw [calledSignaturesAll_eq_flatMap, funext indirectSignatures_eq]

end Expr

/-- Every signature that a module uses, with repetitions: each function's own, then those of the calls through the table in its body,
in the order of evaluation. -/
def Module.discovered (m : Module) : List Signature :=
  m.functions.toList.flatMap fun f => f.signature :: Expr.calledSignaturesAll f.body

theorem Module.signatureUses_eq (m : Module) : m.signatureUses = m.discovered := by
  unfold signatureUses discovered
  simp only [Expr.flatMap_indirectSignatures]

/-! ## First occurrences -/

namespace Catalog

/-- First occurrences stand in the order in which they are met. -/
theorem pairwise_idxOf_eraseDups (ss : List Signature) :
    ss.eraseDups.Pairwise fun s s' => ss.idxOf s < ss.idxOf s' := by
  -- from the right: a signature that is new at the end comes after all that were met before it
  induction ss using List.reverseRecOn with
  | nil => exact .nil
  | append_singleton ss s ih =>
    have hold : ss.eraseDups.Pairwise fun a b => (ss ++ [s]).idxOf a < (ss ++ [s]).idxOf b := by
      refine ih.imp_of_mem fun {a b} ha hb hab => ?_
      rw [List.mem_eraseDups] at ha hb
      rwa [List.idxOf_append_of_mem ha, List.idxOf_append_of_mem hb]
    by_cases hs : s ∈ ss
    · have hremove : [s].removeAll ss = [] := by simp [List.removeAll, hs]
      rw [List.eraseDups_append, hremove]
      simpa using hold
    · have hremove : [s].removeAll ss = [s] := by simp [List.removeAll, hs]
      rw [List.eraseDups_append, hremove, eraseDups_of_nodup (List.nodup_singleton s)]
      refine List.pairwise_append.2 ⟨hold, List.pairwise_singleton _ _, ?_⟩
      intro a ha b hb
      rw [List.mem_eraseDups] at ha
      obtain rfl := List.mem_singleton.1 hb
      rw [List.idxOf_append_of_mem ha, List.idxOf_append_of_notMem hs]
      exact Nat.lt_add_right _ (List.idxOf_lt_length_of_mem ha)

/-- A signature that is met occurs once among the first occurrences, and any other does not. -/
theorem count_eraseDups (ss : List Signature) (s : Signature) : ss.eraseDups.count s = if s ∈ ss then 1 else 0 := by
  have hmem : s ∈ ss.eraseDups ↔ s ∈ ss := List.mem_eraseDups
  split
  · rename_i hs
    exact List.count_eq_one_of_mem (nodup_eraseDups ss) (hmem.2 hs)
  · rename_i hs
    exact List.count_eq_zero_of_not_mem fun h => hs (hmem.1 h)

end Catalog

/-- The type section of a rendered module is read to its end as the first occurrences among the signatures that the module uses: each
signature in use occurs once, no other occurs, and they stand in the order of their discovery. -/
theorem render_typeSection {encoder : ExprEncoder σ} {settings : Settings} {m : Module} {before after : RenderState σ}
    {bytes : List UInt8} (h : (encoder.render settings m).run before = .ok bytes after) :
    ∃ b payload types, Binary.ofBytes? bytes = some b ∧ b.payload? .types = some payload ∧
      readTypes.whole payload = some types ∧ types = m.discovered.eraseDups ∧
      (∀ s, types.count s = if s ∈ m.discovered then 1 else 0) ∧
      types.Pairwise fun s s' => m.discovered.idxOf s < m.discovered.idxOf s' := by
  obtain ⟨n, log, t, -, hn, hmade, hbytes⟩ := ExprEncoder.exists_slots_of_render h
  have hpayload := Binary.payload?_filterMap settings.revision hmade.kind_get .types
  have htypes := (Section.says_types hmade.types).2
  rw [hn.signatures, Module.signatureUses_eq] at htypes
  exact ⟨_, _, _, hbytes, hpayload, htypes, rfl, Catalog.count_eraseDups _,
    Catalog.pairwise_idxOf_eraseDups _⟩

/-- A function that calls through the table with calls through the table in the arguments and in the selector. -/
def Module.nestedCalls : Module :=
  let selector := Expr.callIndirect ⟨some .i32, [.f64]⟩ (.i32Const 0) [.f64Const ⟨0⟩]
  let argument := Expr.callIndirect ⟨some .i64, []⟩ (.i32Const 1) []
  let main := { Function.new "main" with
    body := [.block [.callIndirect ⟨none, [.i64]⟩ selector [argument]], .drop argument] }
  { Module.empty with functions := FunctionTable.empty.insert main }

/-- The signature of the argument comes before that of the selector, and both before that of the call. -/
theorem render_typeSection_nestedCalls :
    ∃ bytes after b payload, (standardEncoder.render ⟨.v11, false⟩ Module.nestedCalls).run ⟨(), []⟩ = .ok bytes after ∧
      Binary.ofBytes? bytes = some b ∧ b.payload? .types = some payload ∧
      readTypes.whole payload = some [⟨none, []⟩, ⟨some .i64, []⟩, ⟨some .i32, [.f64]⟩, ⟨none, [.i64]⟩] := by
  have hok : (Module.nestedCalls.render ⟨.v11, false⟩).isOk = true := by decide +kernel
  obtain ⟨bytes, hbytes⟩ := EncodeError.exists_of_isOk hok
  obtain ⟨after, hrun⟩ := Module.render_eq_ok.1 hbytes
  obtain ⟨b, payload, types, hb, hpayload, hread, htypes, -⟩ := render_typeSection hrun
  have hlist : Module.nestedCalls.discovered.eraseDups =
      [⟨none, []⟩, ⟨some .i64, []⟩, ⟨some .i32, [.f64]⟩, ⟨none, [.i64]⟩] := by decide +kernel
  rw [htypes, hlist] at hread
  exact ⟨bytes, after, b, payload, hrun, hb, hpayload, hread⟩

end WasmBinary
