import WasmBinary.ExprEncoder
import WasmBinary.Instruction.Reader
import WasmBinary.Proofs.Reading

/-!
# Instructions in function bodies

An instruction is read back from its bytes (`Instr.reads_bytes`), so the code of a body is read back as the sequence that was
written (`Instr.toEnd_bytes`). What is written for an expression is its flattened sequence with every name and signature replaced
by its number (`Expr.toBytes_write`). The calls of the sequence are the call nodes of the tree in post-order
(`Expr.filter_isCall_flatten`).
-/

namespace WasmBinary

open ByteReader

namespace Instr

/-- An instruction is read back, whatever bytes follow. -/
theorem reads_bytes (i : Instr) : Reads read i.bytes i := by
  refine (reads_byte i.opcode).bind ?_
  cases i with
  | unreachable | nop | block_ | loop_ | if_ | else_ | end_ | ret | drop => exact reads_pure _
  | br n => exact (reads_leb n).map br
  | brIf n => exact (reads_leb n).map brIf
  | i32Const v => exact (reads_sleb32 v).map i32Const
  | i64Const v => exact (reads_sleb64 v).map i64Const
  | f32Const x => exact (reads_f32 x).map f32Const
  | f64Const x => exact (reads_f64 x).map f64Const
  | getLocal n => exact (reads_leb n).map getLocal
  | setLocal n => exact (reads_leb n).map setLocal
  | call n => exact (reads_leb n).map call
  | callImport n => exact (reads_leb n).map callImport
  | callIndirect n => exact (reads_leb n).map callIndirect
  | load t align offset => cases t <;> exact (reads_leb align).bind ((reads_leb offset).map _)
  | store t align offset => cases t <;> exact (reads_leb align).bind ((reads_leb offset).map _)
  | binary op => cases op <;> exact reads_pure _

theorem forall₂_reads_bytes (code : List Instr) : List.Forall₂ (Reads read) (code.map bytes) code := by
  rw [List.forall₂_map_left_iff]
  exact List.forall₂_same.2 fun i _ => reads_bytes i

/-- A sequence of instructions is read back, as many as there are, whatever bytes follow. -/
theorem reads_repeated_bytes (code : List Instr) : Reads (repeated read code.length) (code.flatMap bytes) code := by
  have hread := reads_repeated (forall₂_reads_bytes code)
  rwa [List.length_map, ← List.flatMap_def] at hread

/-- A sequence of instructions is read back to its end. -/
theorem toEnd_bytes (code : List Instr) : toEnd read (code.flatMap bytes) = some code := by
  rw [List.flatMap_def]
  refine toEnd_flatten (forall₂_reads_bytes code) ?_
  intro part hpart
  obtain ⟨i, -, rfl⟩ := List.mem_map.1 hpart
  exact List.cons_ne_nil _ _

/-- Different sequences of instructions have different bytes. -/
theorem flatMap_bytes_inj {code code' : List Instr} : code.flatMap bytes = code'.flatMap bytes ↔ code = code' := by
  constructor
  · intro h
    have hread := toEnd_bytes code
    rw [h, toEnd_bytes] at hread
    exact (Option.some.inj hread).symm
  · rintro rfl
    rfl

/-- Whether the instruction calls a function. -/
def isCall : Instr → Bool
  | call _ | callImport _ | callIndirect _ => true
  | _ => false

end Instr

/-! ## Writing expressions -/

namespace Symbolic

instance appends_write (refs : References) (s : Symbolic) : (s.write refs).Appends := by
  cases s with
  | plain i => exact WriteM.appends_raw _
  | call function => exact WriteM.appends_bind
  | callIndirect s => exact WriteM.appends_bind

/-- A symbolic instruction is written as the bytes of the instruction that it stands for. -/
theorem toBytes_write (refs : References) (s : Symbolic) : (s.write refs).toBytes = Instr.bytes <$> s.resolve refs := by
  cases s with
  | plain i => exact WriteM.toBytes_raw _
  | call function =>
    show (liftM (refs.callInstr function) >>= fun i => WriteM.raw i.bytes : WriteM Unit).toBytes = _
    rw [WriteM.toBytes_lift_bind, resolve]
    cases refs.callInstr function with
    | ok i => exact WriteM.toBytes_raw _
    | error e => rfl
  | callIndirect s =>
    show (WriteM.byte (Instr.callIndirect 0).opcode >>= fun _ =>
      (liftM (refs.signatures.number s) >>= fun i => WriteM.leb i : WriteM Unit)).toBytes = _
    rw [WriteM.toBytes_seq, WriteM.toBytes_byte,
      WriteM.toBytes_lift_bind, resolve]
    cases refs.signatures.number s with
    | ok i =>
      show (do return [(Instr.callIndirect 0).opcode] ++ (← (WriteM.leb i).toBytes)) = _
      rw [WriteM.toBytes_leb]
      rfl
    | error e => rfl

/-- Whether the instruction calls a function. -/
def isCall : Symbolic → Bool
  | plain _ => false
  | call _ | callIndirect _ => true

end Symbolic

namespace Expr

instance appends_write (refs : References) (e : Expr) : (e.write refs).Appends :=
  WriteM.appends_forM _

/-- A sequence of symbolic instructions is written as the bytes of the instructions that they stand for. -/
theorem toBytes_forM_write (refs : References) (code : List Symbolic) :
    (code.forM (Symbolic.write refs)).toBytes = List.flatMap Instr.bytes <$> code.mapM (Symbolic.resolve refs) := by
  have hwrite : (fun s : Symbolic => (s.write refs).toBytes) = fun s => Instr.bytes <$> s.resolve refs :=
    funext (Symbolic.toBytes_write refs)
  rw [WriteM.toBytes_forM, hwrite, EncodeError.mapM_map_value, ← comp_map]
  rfl

/-- An expression is written as its instructions, each name and signature replaced by its number. -/
theorem toBytes_write (refs : References) (e : Expr) :
    (e.write refs).toBytes = List.flatMap Instr.bytes <$> e.flatten.mapM (Symbolic.resolve refs) :=
  toBytes_forM_write refs e.flatten

/-- The expressions of a body are written as the instructions of the whole body. -/
theorem flatten_mapM_toBytes_write (refs : References) (es : List Expr) :
    List.flatten <$> (es.mapM fun e => (e.write refs).toBytes) =
      List.flatMap Instr.bytes <$> (flattenAll es).mapM (Symbolic.resolve refs) := by
  induction es with
  | nil => rfl
  | cons e es ih =>
    rw [List.mapM_cons, flattenAll, List.mapM_append, toBytes_write]
    simp only [map_eq_pure_bind, bind_assoc, pure_bind, List.flatten_cons, List.flatMap_append] at ih ⊢
    refine bind_congr fun code => ?_
    have h := congrArg (· >>= fun rest => (pure (code.flatMap Instr.bytes ++ rest) : Except EncodeError _)) ih
    simpa only [bind_assoc, pure_bind] using h

/-! ## Calls -/

/-- The call that a node makes, once its operands are evaluated. -/
def callSymbol? : Expr → Option Symbolic
  | call function _ => some (.call function)
  | callIndirect s _ _ => some (.callIndirect s)
  | _ => none

/-- The calls of an expression are those of its operands in order, then its own. -/
theorem filter_isCall_flatten_children (e : Expr) :
    e.flatten.filter Symbolic.isCall =
      e.children.flatMap (fun c => c.flatten.filter Symbolic.isCall) ++ e.callSymbol?.toList := by
  cases e with
  | cond c thenBody elseBody =>
    by_cases h : elseBody = [] <;>
      simp [flatten, flattenAll_eq_flatMap, children, callSymbol?, Symbolic.isCall, List.filter_flatMap, h]
  | _ => simp [flatten, flattenAll_eq_flatMap, children, callSymbol?, Symbolic.isCall, List.filter_flatMap]

/-- The calls in the code of an expression are its call nodes in post-order. -/
theorem filter_isCall_flatten (e : Expr) : e.flatten.filter Symbolic.isCall = e.postorder.filterMap callSymbol? := by
  induction e using childInduction with
  | step e ih =>
    rw [filter_isCall_flatten_children, postorder_eq, List.filterMap_append, List.filterMap_flatMap,
      List.flatMap_congr ih]
    cases h : e.callSymbol? <;> simp [h]

/-- The calls in the code of a body are its call nodes in post-order. -/
theorem filter_isCall_flattenAll (es : List Expr) :
    (flattenAll es).filter Symbolic.isCall = (es.flatMap postorder).filterMap callSymbol? := by
  rw [flattenAll_eq_flatMap, List.filter_flatMap, List.filterMap_flatMap]
  exact List.flatMap_congr fun e _ => filter_isCall_flatten e

end Expr

end WasmBinary
