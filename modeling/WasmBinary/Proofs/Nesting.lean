import WasmBinary.Instruction.Nesting
import WasmBinary.Proofs.Lowering
import WasmBinary.Proofs.Sections

/-!
# Nesting in function bodies

The code of expressions opens and closes levels in pairs: whatever levels are open before it are open after it, and no other ones
(`Lowers.run_nesting`). So in a body no instruction closes a level that the body did not open, and under revision 0xC the last byte is
found without knowing the length of the body: it is the first `end_` that is met while no level is open (`Nesting.readBody`).
-/

namespace WasmBinary

open ByteReader

namespace Nesting

variable {levels outer : Nesting} {code code' : List Instr} {i : Instr}

/-! ## Runs -/

@[simp] theorem run_nil (levels : Nesting) : run levels [] = some levels := rfl

@[simp] theorem run_cons (levels : Nesting) (i : Instr) (code : List Instr) :
    run levels (i :: code) = (levels.step i).bind fun inner => run inner code :=
  List.foldlM_cons

@[simp] theorem run_append (levels : Nesting) (code code' : List Instr) :
    run levels (code ++ code') = (run levels code).bind fun inner => run inner code' :=
  List.foldlM_append

/-- A sequence that may stand somewhere may stand there up to any point. -/
theorem exists_run_of_prefix (h : run levels code = some outer) (hprior : code' <+: code) :
    ∃ inner, run levels code' = some inner := by
  obtain ⟨rest, rfl⟩ := hprior
  rw [run_append, Option.bind_eq_some_iff] at h
  obtain ⟨inner, hinner, -⟩ := h
  exact ⟨inner, hinner⟩

/-- An instruction that neither opens a level nor calls a function leaves the levels as they are. -/
theorem step_of_operation {e : Expr} {operands : List Expr} (he : e.operation? = some (operands, i)) (levels : Nesting) :
    levels.step i = some levels := by
  cases e <;> simp only [Expr.operation?, Option.some.injEq, Prod.mk.injEq, reduceCtorEq] at he
  all_goals
    obtain ⟨-, rfl⟩ := he
    rfl

end Nesting

/-- The code of expressions leaves the levels as they are. -/
theorem Lowers.run_nesting {refs : References} {es : List Expr} {code : List Instr} (h : Lowers refs es code) :
    ∀ levels, Nesting.run levels code = some levels := by
  induction h with
  | nil => exact Nesting.run_nil
  | cons _ _ ihe ihes =>
    intro levels
    simp [ihe, ihes]
  | operation he _ ih =>
    intro levels
    simp [ih, Nesting.step_of_operation he]
  | block _ ih | loop _ ih =>
    intro levels
    simp [ih, Nesting.step]
  | cond _ _ ihc ihthen =>
    intro levels
    simp [ihc, ihthen, Nesting.step]
  | condElse _ _ _ _ ihc ihthen ihelse =>
    intro levels
    simp [ihc, ihthen, ihelse, Nesting.step]
  | callImport _ _ _ ih | call _ _ _ ih | callIndirect _ _ ih =>
    intro levels
    simp [ih, Nesting.step]

/-! ## Finding the end of a body -/

namespace Nesting

/-- The instructions up to the first `end_` that is met while no level is open, and the bytes after it; `none` if an instruction may
not stand where it does or the bytes end before. -/
def readBody (levels : Nesting) (bytes : List UInt8) : Option (List Instr × List UInt8) :=
  match Instr.read.run bytes with
  | none => none
  | some (i, rest) =>
    if i = .end_ ∧ levels = [] then some ([i], rest)
    else if rest.length < bytes.length then
      match levels.step i with
      | none => none
      | some inner => (readBody inner rest).map fun p => (i :: p.1, p.2)
    else none
termination_by bytes.length

/-- The first `end_` with no level open is where the body ends. -/
theorem readBody_end (rest : List UInt8) : readBody [] (endByte :: rest) = some ([.end_], rest) := by
  have hread : Instr.read.run (endByte :: rest) = some (.end_, rest) := Instr.reads_bytes .end_ rest
  rw [readBody, hread]
  simp

/-- An instruction that may stand where it does is read, and reading goes on with the levels that it leaves. -/
theorem readBody_bytes_append {levels inner : Nesting} {i : Instr} (hstep : levels.step i = some inner) (rest : List UInt8) :
    readBody levels (i.bytes ++ rest) = (readBody inner rest).map fun p => (i :: p.1, p.2) := by
  -- an `end_` with no level open may not stand there, so this is not the end of the body
  have hopen : ¬(i = .end_ ∧ levels = []) := by
    rintro ⟨rfl, rfl⟩
    nomatch hstep
  have hlength : rest.length < (i.bytes ++ rest).length := by
    simp only [Instr.bytes, List.length_append, List.length_cons]
    omega
  rw [readBody, Instr.reads_bytes i rest]
  simp only [hopen, hlength, hstep, if_false, if_true]

/-- A sequence that may stand where it does is read, and reading goes on with the levels that it leaves. -/
theorem readBody_flatMap_append {levels outer : Nesting} {code : List Instr} (hrun : run levels code = some outer)
    (rest : List UInt8) :
    readBody levels (code.flatMap Instr.bytes ++ rest) = (readBody outer rest).map fun p => (code ++ p.1, p.2) := by
  induction code generalizing levels with
  | nil =>
    obtain rfl := Option.some.inj hrun
    simp
  | cons i code ih =>
    rw [run_cons, Option.bind_eq_some_iff] at hrun
    obtain ⟨inner, hstep, hrun⟩ := hrun
    rw [List.flatMap_cons, List.append_assoc, readBody_bytes_append hstep, ih hrun, Option.map_map]
    rfl

end Nesting

/-! ## Encoded bodies -/

/-- An encoded body is the runs of the locals, the bytes of the code of the expressions, and the end byte where there is one. -/
theorem exists_lowers_of_body {n : Numbering} {f : Function} {bytes : List UInt8}
    (h : (standardEncoder.body n f).run () = .ok bytes ()) :
    ∃ vars code, f.writeVars.toBytes = .ok vars ∧ Lowers n.references f.body code ∧
      bytes = vars ++ (code.flatMap Instr.bytes ++ n.revision.bodyEnd) := by
  rw [standardEncoder_body, EncodeError.run_lift_eq_ok] at h
  obtain ⟨vars, hvars, h⟩ := EncodeError.bind_eq_ok.1 h.1
  obtain ⟨parts, hparts, h⟩ := EncodeError.bind_eq_ok.1 h
  obtain ⟨code, hcode, hbytes⟩ := Lowers.of_mapM_toBytes_write hparts
  refine ⟨vars, code, hvars, hcode, ?_⟩
  rw [← Except.ok.inj h, hbytes, List.append_assoc]

/-- The code of an encoded body is that of its expressions, stands after the locals and is well nested. Under revision 0xB it opens and
closes levels in pairs and reaches to the end of the body. Under revision 0xC it is followed by an end byte, the last of the body, and
this is the first `end_` with no level open, whatever follows the body. -/
theorem body_wellNested {n : Numbering} {f : Function} {bytes : List UInt8}
    (h : (standardEncoder.body n f).run () = .ok bytes ()) :
    ∃ (runs : List LocalRun) (part : List UInt8) (code : List Instr),
      Lowers n.references f.body code ∧
      (∀ rest, (counted LocalRun.read).run (bytes ++ rest) = some (runs, part ++ rest)) ∧
      (∀ prior, prior <+: code → ∃ levels, Nesting.run [] prior = some levels) ∧
      Nesting.run [] code = some [] ∧
      match n.revision with
      | .v11 => toEnd Instr.read part = some code
      | .v12 => (∃ init, part = init ++ [endByte]) ∧ ∀ rest, Nesting.readBody [] (part ++ rest) = some (code ++ [.end_], rest) := by
  obtain ⟨vars, code, hvars, hcode, rfl⟩ := exists_lowers_of_body h
  have hread : Reads (counted LocalRun.read) vars _ := readBy_counted LocalRun.readBy_write _ vars hvars
  have hrun := hcode.run_nesting []
  refine ⟨(LocalRun.ofTypes f.vars.toList).map LocalRun.stored, code.flatMap Instr.bytes ++ n.revision.bodyEnd, code,
    hcode, fun rest => ?_, fun prior hprior => Nesting.exists_run_of_prefix hrun hprior, hrun, ?_⟩
  · rw [List.append_assoc]
    exact hread _
  · cases n.revision with
    | v11 =>
      show toEnd Instr.read (code.flatMap Instr.bytes ++ []) = some code
      rw [List.append_nil]
      exact Instr.toEnd_bytes code
    | v12 =>
      refine ⟨⟨_, rfl⟩, fun rest => ?_⟩
      show Nesting.readBody [] (code.flatMap Instr.bytes ++ [endByte] ++ rest) = _
      rw [List.append_assoc, List.singleton_append, Nesting.readBody_flatMap_append hrun, Nesting.readBody_end]
      rfl

/-- A function whose constants, in all their bytes, look like the instructions that open, divide and close levels. -/
def Function.disguised : Function :=
  { Function.new "disguised" with
    vars := #[.f64]
    body := [.cond (.i32Const 15) [.block [.setLocal 0 (.f64Const ⟨0x0f04030201040f0f⟩)]] [.loop [.brIf 15 (.getLocal 4)]]] }

/-- Under revision 0xC the end of such a function is found, whatever follows. -/
theorem body_wellNested_disguised :
    ∃ (bytes : List UInt8) (runs : List LocalRun) (part : List UInt8),
      (standardEncoder.body ⟨⟨.v12, ∅, ∅, .empty⟩, [], []⟩ .disguised).run () = .ok bytes () ∧
      ∀ rest, (counted LocalRun.read).run (bytes ++ rest) = some (runs, part ++ rest) ∧
        Nesting.readBody [] (part ++ rest) =
          some ([.i32Const 15, .if_, .block_, .f64Const ⟨0x0f04030201040f0f⟩, .setLocal 0, .end_, .else_, .loop_, .getLocal 4, .brIf 15,
            .end_, .end_, .end_], rest) := by
  have hok : (Numbering.bodyBytes ⟨⟨.v12, ∅, ∅, .empty⟩, [], []⟩ .disguised).isOk = true := by decide +kernel
  obtain ⟨bytes, hbytes⟩ := EncodeError.exists_of_isOk hok
  have hbody : (standardEncoder.body ⟨⟨.v12, ∅, ∅, .empty⟩, [], []⟩ .disguised).run () = .ok bytes () := by
    rw [standardEncoder_body, EncodeError.run_lift_eq_ok]
    exact ⟨hbytes, rfl⟩
  have hcode : Lowers ⟨.v12, ∅, ∅, .empty⟩ Function.disguised.body [.i32Const 15, .if_, .block_, .f64Const ⟨0x0f04030201040f0f⟩,
      .setLocal 0, .end_, .else_, .loop_, .getLocal 4, .brIf 15, .end_, .end_] :=
    Lowers.iff_filled.2 (EncodeError.mapM_eq_ok.1 (by decide +kernel))
  obtain ⟨runs, part, code, hlowers, hruns, -, -, -, hread⟩ := body_wellNested hbody
  obtain rfl := hlowers.unique hcode
  exact ⟨bytes, runs, part, hbody, fun rest => ⟨hruns rest, hread rest⟩⟩

end WasmBinary
