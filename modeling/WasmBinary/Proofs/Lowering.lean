import WasmBinary.Proofs.Catalog
import WasmBinary.Proofs.Rendering

/-!
# The code of expressions

`Lowers refs es code` says by rules which instructions a sequence of expressions stands for: the code of the operands, then the
instruction of the node; a block, a loop or a conditional around the code of its parts; a call with the number that the tables give.
The rules follow the trees and mention no bytes. They allow exactly the instructions that the layout of the expressions gives
(`Lowers.iff_filled`). What is written for expressions are the bytes of these instructions (`Lowers.of_mapM_toBytes_write`), and
reading instructions one at a time gives them back.
-/

namespace WasmBinary

open ByteReader

/-- The operands and the instruction of a node that opens no level and calls no function. -/
def Expr.operation? : Expr → Option (List Expr × Instr)
  | unreachable => some ([], .unreachable)
  | nop => some ([], .nop)
  | br depth => some ([], .br depth)
  | brIf depth c => some ([c], .brIf depth)
  | ret => some ([], .ret)
  | retValue v => some ([v], .ret)
  | drop v => some ([v], .drop)
  | i32Const v => some ([], .i32Const v)
  | i64Const v => some ([], .i64Const v)
  | f32Const v => some ([], .f32Const v)
  | f64Const v => some ([], .f64Const v)
  | getLocal index => some ([], .getLocal index)
  | setLocal index v => some ([v], .setLocal index)
  | load t offset address => some ([address], .load t t.alignment offset)
  | store t offset address v => some ([address, v], .store t t.alignment offset)
  | binary op l r => some ([l, r], .binary op)
  | block _ | loop _ | cond .. | call .. | callIndirect .. => none

/-- The code is that of the expressions, one after another, under the numbers that `refs` gives. -/
inductive Lowers (refs : References) : List Expr → List Instr → Prop
  | nil : Lowers refs [] []
  | cons {e : Expr} {es : List Expr} {code rest : List Instr} (he : Lowers refs [e] code) (hes : Lowers refs es rest) :
    Lowers refs (e :: es) (code ++ rest)
  /-- The code of the operands comes before the instruction that takes them. -/
  | operation {e : Expr} {operands : List Expr} {i : Instr} {code : List Instr} (he : e.operation? = some (operands, i))
    (hoperands : Lowers refs operands code) : Lowers refs [e] (code ++ [i])
  | block {body : List Expr} {code : List Instr} (hbody : Lowers refs body code) :
    Lowers refs [.block body] (.block_ :: (code ++ [.end_]))
  | loop {body : List Expr} {code : List Instr} (hbody : Lowers refs body code) :
    Lowers refs [.loop body] (.loop_ :: (code ++ [.end_]))
  /-- A conditional whose second branch is empty has no `else_`. -/
  | cond {c : Expr} {thenBody : List Expr} {test code : List Instr} (hc : Lowers refs [c] test)
    (hthen : Lowers refs thenBody code) : Lowers refs [.cond c thenBody []] (test ++ .if_ :: (code ++ [.end_]))
  | condElse {c : Expr} {thenBody elseBody : List Expr} {test code code' : List Instr} (hne : elseBody ≠ [])
    (hc : Lowers refs [c] test) (hthen : Lowers refs thenBody code) (helse : Lowers refs elseBody code') :
    Lowers refs [.cond c thenBody elseBody] (test ++ .if_ :: (code ++ .else_ :: (code' ++ [.end_])))
  /-- Under revision 0xB a function that has a number among the imported ones is called by that number. -/
  | callImport {name : String} {args : List Expr} {i : UInt32} {code : List Instr} (hr : refs.revision = .v11)
    (hi : refs.importNumbers[name]? = some i) (hargs : Lowers refs args code) :
    Lowers refs [.call name args] (code ++ [.callImport i])
  | call {name : String} {args : List Expr} {i : UInt32} {code : List Instr}
    (hr : refs.revision = .v11 → refs.importNumbers[name]? = none) (hi : refs.functionNumbers[name]? = some i)
    (hargs : Lowers refs args code) : Lowers refs [.call name args] (code ++ [.call i])
  /-- The arguments come before the selector, and the number of the signature is its place. -/
  | callIndirect {s : Signature} {selector : Expr} {args : List Expr} {t : UInt32} {code : List Instr}
    (ht : refs.signatures.signatures[t.toNat]? = some s) (hoperands : Lowers refs (args ++ [selector]) code) :
    Lowers refs [.callIndirect s selector args] (code ++ [.callIndirect t])

/-! ## Rules and layout agree -/

/-- The code is the layout with every name and signature replaced by its number. -/
abbrev Filled (refs : References) : List Symbolic → List Instr → Prop :=
  List.Forall₂ fun s i => s.resolve refs = .ok i

namespace Filled

variable {refs : References} {layout layout' : List Symbolic} {code code' : List Instr} {s : Symbolic} {i : Instr}

theorem append (h : Filled refs layout code) (h' : Filled refs layout' code') : Filled refs (layout ++ layout') (code ++ code') :=
  List.rel_append h h'

/-- The code of two layouts in a row falls into the code of each. -/
theorem exists_append (h : Filled refs (layout ++ layout') code) :
    ∃ first second, Filled refs layout first ∧ Filled refs layout' second ∧ code = first ++ second := by
  induction layout generalizing code with
  | nil => exact ⟨[], code, .nil, h, rfl⟩
  | cons s layout ih =>
    obtain ⟨i, rest, hi, hrest, rfl⟩ := List.forall₂_cons_left_iff.1 h
    obtain ⟨first, second, hfirst, hsecond, rfl⟩ := ih hrest
    exact ⟨i :: first, second, .cons hi hfirst, hsecond, rfl⟩

/-- The code of a layout with a symbol in the middle has the instruction of that symbol in the middle. -/
theorem exists_append_cons (h : Filled refs (layout ++ s :: layout') code) :
    ∃ first i second, Filled refs layout first ∧ s.resolve refs = .ok i ∧ Filled refs layout' second ∧
      code = first ++ i :: second := by
  obtain ⟨first, _, hfirst, htail, rfl⟩ := exists_append h
  obtain ⟨i, second, hi, hsecond, rfl⟩ := List.forall₂_cons_left_iff.1 htail
  exact ⟨first, i, second, hfirst, hi, hsecond, rfl⟩

/-- The code of a layout that ends in a symbol ends in the instruction of that symbol. -/
theorem exists_append_singleton (h : Filled refs (layout ++ [s]) code) :
    ∃ first i, Filled refs layout first ∧ s.resolve refs = .ok i ∧ code = first ++ [i] := by
  obtain ⟨first, i, second, hfirst, hi, hnil, rfl⟩ := exists_append_cons h
  obtain rfl := List.forall₂_nil_left_iff.1 hnil
  exact ⟨first, i, hfirst, hi, rfl⟩

/-- The code of a layout between two instructions stands between these instructions. -/
theorem exists_enclosed {j : Instr} (h : Filled refs (.plain i :: (layout ++ [.plain j])) code) :
    ∃ inner, Filled refs layout inner ∧ code = i :: (inner ++ [j]) := by
  obtain ⟨_, _, hi, htail, rfl⟩ := List.forall₂_cons_left_iff.1 h
  obtain ⟨inner, _, hinner, hj, rfl⟩ := exists_append_singleton htail
  obtain rfl := Except.ok.inj hi
  obtain rfl := Except.ok.inj hj
  exact ⟨inner, hinner, rfl⟩

end Filled

namespace References

/-- A name is called by its number among the imported functions if it has one there and these are numbered apart, and by its number
among all functions otherwise. -/
theorem callInstr_eq_ok {refs : References} {name : String} {i : Instr} :
    refs.callInstr name = .ok i ↔
      (refs.revision = .v11 ∧ ∃ k, refs.importNumbers[name]? = some k ∧ i = .callImport k) ∨
        ((refs.revision = .v11 → refs.importNumbers[name]? = none) ∧ ∃ k, refs.functionNumbers[name]? = some k ∧ i = .call k) := by
  have hnumber : (NameTable.number refs.functionNumbers name).map Instr.call = .ok i ↔
      ∃ k, refs.functionNumbers[name]? = some k ∧ i = .call k := by
    unfold NameTable.number
    cases refs.functionNumbers[name]? with
    | none => simp [Except.map]
    | some k => simp [Except.map, eq_comm]
  unfold callInstr
  cases hr : refs.revision with
  | v12 => simpa [Revision.combined] using hnumber
  | v11 =>
    cases himport : refs.importNumbers[name]? with
    | none => simpa [Revision.combined] using hnumber
    | some k => simp [Revision.combined, eq_comm]

end References

namespace Expr

theorem flattenAll_singleton (e : Expr) : flattenAll [e] = e.flatten :=
  List.append_nil _

theorem flattenAll_append (es es' : List Expr) : flattenAll (es ++ es') = flattenAll es ++ flattenAll es' := by
  simp only [flattenAll_eq_flatMap, List.flatMap_append]

/-- A node that opens no level and calls no function is laid out as its operands and its instruction. -/
theorem flatten_of_operation {e : Expr} {operands : List Expr} {i : Instr} (h : e.operation? = some (operands, i)) :
    e.flatten = flattenAll operands ++ [.plain i] := by
  cases e <;> simp only [operation?, Option.some.injEq, Prod.mk.injEq, reduceCtorEq] at h
  all_goals
    obtain ⟨rfl, rfl⟩ := h
    simp [flatten, flattenAll]

/-- The operands of such a node are its children. -/
theorem children_of_operation {e : Expr} {operands : List Expr} {i : Instr} (h : e.operation? = some (operands, i)) :
    e.children = operands := by
  cases e <;> simp only [operation?, Option.some.injEq, Prod.mk.injEq, reduceCtorEq] at h
  all_goals
    obtain ⟨rfl, rfl⟩ := h
    rfl

end Expr

namespace Lowers

variable {refs : References} {es : List Expr} {code : List Instr}

/-- Code by the rules fills the layout of the expressions. -/
theorem filled (h : Lowers refs es code) : Filled refs (Expr.flattenAll es) code := by
  induction h with
  | nil => exact .nil
  | cons _ _ ihe ihes =>
    rw [Expr.flattenAll_singleton] at ihe
    exact ihe.append ihes
  | operation he _ ih =>
    rw [Expr.flattenAll_singleton, Expr.flatten_of_operation he]
    exact ih.append (.cons rfl .nil)
  | block _ ih | loop _ ih =>
    rw [Expr.flattenAll_singleton]
    exact .cons rfl (ih.append (.cons rfl .nil))
  | cond _ _ ihc ihthen =>
    rw [Expr.flattenAll_singleton] at ihc ⊢
    exact ihc.append (.cons rfl (ihthen.append (.cons rfl .nil)))
  | condElse hne _ _ _ ihc ihthen ihelse =>
    rw [Expr.flattenAll_singleton] at ihc ⊢
    rw [Expr.flatten, if_neg (by simpa using hne)]
    exact ihc.append (.cons rfl (ihthen.append (.cons rfl (ihelse.append (.cons rfl .nil)))))
  | callImport hr hi _ ih =>
    rw [Expr.flattenAll_singleton]
    exact ih.append (.cons (References.callInstr_eq_ok.2 (.inl ⟨hr, _, hi, rfl⟩)) .nil)
  | call hr hi _ ih =>
    rw [Expr.flattenAll_singleton]
    exact ih.append (.cons (References.callInstr_eq_ok.2 (.inr ⟨hr, _, hi, rfl⟩)) .nil)
  | @callIndirect s selector args t code ht _ ih =>
    have hnumber : (Symbolic.callIndirect s).resolve refs = .ok (.callIndirect t) :=
      EncodeError.map_eq_ok.2 ⟨t, Catalog.number_eq_ok.2 ht, rfl⟩
    rw [Expr.flattenAll_append, Expr.flattenAll_singleton] at ih
    rw [Expr.flattenAll_singleton, Expr.flatten, ← List.append_assoc]
    exact ih.append (.cons hnumber .nil)

/-- If what fills the layout of each expression of a sequence is its code by the rules, so is what fills the layout of the
sequence. -/
theorem of_filled_all (hes : ∀ e ∈ es, ∀ code, Filled refs e.flatten code → Lowers refs [e] code)
    (h : Filled refs (Expr.flattenAll es) code) : Lowers refs es code := by
  induction es generalizing code with
  | nil =>
    rw [List.forall₂_nil_left_iff.1 h]
    exact .nil
  | cons e es ih =>
    obtain ⟨first, rest, hfirst, hrest, rfl⟩ := Filled.exists_append h
    have he := hes e List.mem_cons_self first hfirst
    exact .cons he (ih (fun e' he' => hes e' (List.mem_cons_of_mem _ he')) hrest)

/-- What fills the layout of an expression is its code by the rules. -/
theorem of_filled_flatten (e : Expr) : ∀ code, Filled refs e.flatten code → Lowers refs [e] code := by
  induction e using Expr.childInduction with
  | step e ih =>
    intro code h
    -- most nodes are operands and an instruction; what is left has levels, or a number to look up
    cases he : e.operation? with
    | some p =>
      obtain ⟨operands, i⟩ := p
      rw [Expr.children_of_operation he] at ih
      rw [Expr.flatten_of_operation he] at h
      obtain ⟨first, _, hfirst, hi, rfl⟩ := Filled.exists_append_singleton h
      obtain rfl := Except.ok.inj hi
      exact .operation he (of_filled_all ih hfirst)
    | none =>
      cases e with
      | block body =>
        obtain ⟨inner, hinner, rfl⟩ := Filled.exists_enclosed h
        exact .block (of_filled_all ih hinner)
      | loop body =>
        obtain ⟨inner, hinner, rfl⟩ := Filled.exists_enclosed h
        exact .loop (of_filled_all ih hinner)
      | cond c thenBody elseBody =>
        have hc := ih c List.mem_cons_self
        have hthen : ∀ e ∈ thenBody, ∀ code, Filled refs e.flatten code → Lowers refs [e] code :=
          fun e he => ih e (List.mem_cons_of_mem _ (List.mem_append_left _ he))
        have helse : ∀ e ∈ elseBody, ∀ code, Filled refs e.flatten code → Lowers refs [e] code :=
          fun e he => ih e (List.mem_cons_of_mem _ (List.mem_append_right _ he))
        obtain ⟨test, _, _, htest, hif, htail, rfl⟩ := Filled.exists_append_cons h
        obtain rfl := Except.ok.inj hif
        by_cases hempty : elseBody = []
        · subst hempty
          obtain ⟨first, _, hfirst, hend, rfl⟩ := Filled.exists_append_singleton htail
          obtain rfl := Except.ok.inj hend
          exact .cond (hc test htest) (of_filled_all hthen hfirst)
        · rw [if_neg (by simpa using hempty)] at htail
          obtain ⟨first, _, _, hfirst, hmiddle, hlast, rfl⟩ := Filled.exists_append_cons htail
          obtain ⟨second, _, hsecond, hend, rfl⟩ := Filled.exists_append_singleton hlast
          obtain rfl := Except.ok.inj hmiddle
          obtain rfl := Except.ok.inj hend
          exact .condElse hempty (hc test htest) (of_filled_all hthen hfirst) (of_filled_all helse hsecond)
      | call name args =>
        obtain ⟨first, i, hfirst, hi, rfl⟩ := Filled.exists_append_singleton h
        have hargs := of_filled_all ih hfirst
        rcases References.callInstr_eq_ok.1 hi with ⟨hr, k, hk, rfl⟩ | ⟨hr, k, hk, rfl⟩
        · exact .callImport hr hk hargs
        · exact .call hr hk hargs
      | callIndirect s selector args =>
        rw [Expr.flatten, ← List.append_assoc] at h
        obtain ⟨first, _, hfirst, hi, rfl⟩ := Filled.exists_append_singleton h
        obtain ⟨t, ht, rfl⟩ := EncodeError.map_eq_ok.1 hi
        refine .callIndirect (Catalog.number_eq_ok.1 ht) (of_filled_all ih ?_)
        rw [Expr.flattenAll_append, Expr.flattenAll_singleton]
        exact hfirst
      | _ => simp [Expr.operation?] at he

/-- The rules give what fills the layout, and nothing else. -/
theorem iff_filled : Lowers refs es code ↔ Filled refs (Expr.flattenAll es) code :=
  ⟨filled, of_filled_all fun e _ => of_filled_flatten e⟩

/-- Expressions have one code only. -/
theorem unique {code' : List Instr} (h : Lowers refs es code) (h' : Lowers refs es code') : code' = code :=
  Except.ok.inj ((EncodeError.mapM_eq_ok.2 h'.filled).symm.trans (EncodeError.mapM_eq_ok.2 h.filled))

end Lowers

/-! ## Writing and reading back -/

/-- Expressions are written as the bytes of their code. -/
theorem Lowers.of_mapM_toBytes_write {refs : References} {es : List Expr} {parts : List (List UInt8)}
    (h : (es.mapM fun e => (e.write refs).toBytes) = .ok parts) :
    ∃ code, Lowers refs es code ∧ parts.flatten = code.flatMap Instr.bytes := by
  have hflat := Expr.flatten_mapM_toBytes_write refs es
  rw [h] at hflat
  obtain ⟨code, hcode, hbytes⟩ := EncodeError.map_eq_ok.1 hflat.symm
  exact ⟨code, iff_filled.2 (EncodeError.mapM_eq_ok.1 hcode), hbytes.symm⟩

/-- The encoder that writes instructions gives, expression by expression, what each expression writes. -/
theorem mapM_encode_eq_ok {refs : References} {es : List Expr} {parts : List (List UInt8)} :
    (es.mapM (standardEncoder.encode refs)).run () = .ok parts () ↔ (es.mapM fun e => (e.write refs).toBytes) = .ok parts := by
  have hlift : es.mapM (standardEncoder.encode refs) = liftM (es.mapM fun e => (e.write refs).toBytes) := (liftM_mapM _ es).symm
  rw [hlift, EncodeError.run_lift_eq_ok]
  exact and_iff_left rfl

/-- Whatever expressions the encoder takes, reading one instruction at a time gives back the code that the rules allow for them, and
ends where their bytes end, whatever follows. So expressions have the same bytes exactly if they have the same code, even where they
are encoded under different numbers. -/
theorem encode_decodable {refs : References} {es : List Expr} {parts : List (List UInt8)}
    (h : (es.mapM (standardEncoder.encode refs)).run () = .ok parts ()) :
    ∃ code, (∀ code', Lowers refs es code' ↔ code' = code) ∧
      (∀ buffer : Buffer, (es.forM (Expr.write refs)).run buffer = .ok () (buffer ++ parts.flatten)) ∧
      (∀ rest, (repeated Instr.read code.length).run (parts.flatten ++ rest) = some (code, rest)) ∧
      toEnd Instr.read parts.flatten = some code ∧
      ∀ refs' es' parts', (es'.mapM (standardEncoder.encode refs')).run () = .ok parts' () →
        (parts'.flatten = parts.flatten ↔ Lowers refs' es' code) := by
  rw [mapM_encode_eq_ok] at h
  obtain ⟨code, hcode, hbytes⟩ := Lowers.of_mapM_toBytes_write h
  refine ⟨code, fun code' => ⟨hcode.unique, fun he => he ▸ hcode⟩, fun buffer => ?_, ?_, ?_, fun refs' es' parts' h' => ?_⟩
  · refine WriteM.run_of_toBytes ?_ buffer
    rw [WriteM.toBytes_forM, h]
    rfl
  · rw [hbytes]
    exact Instr.reads_repeated_bytes code
  · rw [hbytes]
    exact Instr.toEnd_bytes code
  · rw [mapM_encode_eq_ok] at h'
    obtain ⟨code', hcode', hbytes'⟩ := Lowers.of_mapM_toBytes_write h'
    rw [hbytes, hbytes', Instr.flatMap_bytes_inj]
    exact ⟨fun he => he ▸ hcode', fun hlowers => (hcode'.unique hlowers).symm⟩

/-- Tables of revision 0xB with one imported function, one defined function and one signature. -/
def References.sample : References where
  revision := .v11
  functionNumbers := (∅ : NameTable).insert "main" 4
  importNumbers := (∅ : NameTable).insert "log" 15
  signatures := Catalog.empty.insert ⟨none, [.i32]⟩

/-- A conditional whose constants and numbers look like opcodes, and a call through the table. -/
def Expr.sample : List Expr :=
  [.cond (.f32Const ⟨0x7fc0040f⟩) [.call "log" [.i64Const (-15)]] [.call "main" []],
    .callIndirect ⟨none, [.i32]⟩ (.i32Const 3) [.getLocal 128]]

/-- Code in which every immediate could be taken for an instruction is read back, whatever follows. -/
theorem encode_decodable_sample :
    ∃ parts, (Expr.sample.mapM (standardEncoder.encode .sample)).run () = .ok parts () ∧
      ∀ rest, (repeated Instr.read 10).run (parts.flatten ++ rest) =
        some ([.f32Const ⟨0x7fc0040f⟩, .if_, .i64Const (-15), .callImport 15, .else_, .call 4, .end_, .getLocal 128, .i32Const 3,
          .callIndirect 0], rest) := by
  have hcode : Lowers .sample Expr.sample [.f32Const ⟨0x7fc0040f⟩, .if_, .i64Const (-15), .callImport 15, .else_, .call 4, .end_,
      .getLocal 128, .i32Const 3, .callIndirect 0] :=
    Lowers.iff_filled.2 (EncodeError.mapM_eq_ok.1 (by decide +kernel))
  have hok : (Expr.sample.mapM fun e => (Expr.write .sample e).toBytes).isOk = true := by decide +kernel
  obtain ⟨parts, hparts⟩ := EncodeError.exists_of_isOk hok
  have hencode := mapM_encode_eq_ok.2 hparts
  obtain ⟨code, hunique, -, hread, -⟩ := encode_decodable hencode
  obtain rfl := (hunique _).1 hcode
  exact ⟨parts, hencode, hread⟩

end WasmBinary
