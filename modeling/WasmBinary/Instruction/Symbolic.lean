import WasmBinary.Instruction.Basic
import WasmBinary.Numbering

/-!
# Symbolic instructions

`Expr.flatten` lays an expression tree out as a sequence of instructions, operands before operators, in which calls still carry
names and signatures; it needs no numbering and cannot fail. `Symbolic.resolve` gives the instruction with the number that it
needs, and `Symbolic.write` writes it. A name or a signature without a number fails there, with everything before it written.
-/

namespace WasmBinary

/-- An instruction before functions and signatures have numbers. -/
inductive Symbolic where
  /-- An instruction that refers to no function or signature. -/
  | plain (i : Instr)
  /-- A call of a function by name. -/
  | call (function : String)
  /-- A call through the table, with the signature that the callee has to have. -/
  | callIndirect (signature : Signature)
  deriving DecidableEq, Repr

namespace Expr

mutual

/-- The instructions of an expression, operands before operators. -/
def flatten : Expr → List Symbolic
  | unreachable => [.plain .unreachable]
  | nop => [.plain .nop]
  | block body => .plain .block_ :: (flattenAll body ++ [.plain .end_])
  | loop body => .plain .loop_ :: (flattenAll body ++ [.plain .end_])
  | cond c thenBody elseBody =>
    flatten c ++ .plain .if_ :: (flattenAll thenBody ++
      ((if elseBody.isEmpty then [] else .plain .else_ :: flattenAll elseBody) ++ [.plain .end_]))
  | br depth => [.plain (.br depth)]
  | brIf depth c => flatten c ++ [.plain (.brIf depth)]
  | ret => [.plain .ret]
  | retValue v => flatten v ++ [.plain .ret]
  | drop v => flatten v ++ [.plain .drop]
  | i32Const v => [.plain (.i32Const v)]
  | i64Const v => [.plain (.i64Const v)]
  | f32Const v => [.plain (.f32Const v)]
  | f64Const v => [.plain (.f64Const v)]
  | getLocal index => [.plain (.getLocal index)]
  | setLocal index v => flatten v ++ [.plain (.setLocal index)]
  | load t offset address => flatten address ++ [.plain (.load t t.alignment offset)]
  | store t offset address v => flatten address ++ (flatten v ++ [.plain (.store t t.alignment offset)])
  | binary op l r => flatten l ++ (flatten r ++ [.plain (.binary op)])
  | call function args => flattenAll args ++ [.call function]
  | callIndirect s selector args => flattenAll args ++ (flatten selector ++ [.callIndirect s])

/-- The instructions of a sequence of expressions. -/
def flattenAll : List Expr → List Symbolic
  | [] => []
  | e :: es => flatten e ++ flattenAll es

end

/-- The instructions of a sequence are those of its expressions, one after another. -/
theorem flattenAll_eq_flatMap (es : List Expr) : flattenAll es = es.flatMap flatten := by
  induction es with
  | nil => rfl
  | cons e es ih => rw [flattenAll, ih, List.flatMap_cons]

end Expr

/-- The call instruction for a name: where imports are numbered apart, an imported function has one of its own. -/
def References.callInstr (refs : References) (function : String) : Except EncodeError Instr :=
  match (if refs.revision.combined then none else refs.importNumbers[function]?) with
  | some i => .ok (.callImport i)
  | none => (NameTable.number refs.functionNumbers function).map Instr.call

namespace Symbolic

/-- The instruction with the number that it needs. -/
def resolve (refs : References) : Symbolic → Except EncodeError Instr
  | plain i => .ok i
  | call function => refs.callInstr function
  | callIndirect s => (refs.signatures.number s).map Instr.callIndirect

/-- Writes an instruction. A call of an unknown name writes nothing; an indirect call writes its opcode before it looks up the
signature. -/
def write (refs : References) : Symbolic → WriteM Unit
  | plain i => WriteM.raw i.bytes
  | call function => do
    WriteM.raw (← refs.callInstr function).bytes
  | callIndirect s => do
    WriteM.byte (Instr.callIndirect 0).opcode
    WriteM.leb (← refs.signatures.number s)

end Symbolic

/-- Writes the instructions of an expression. -/
def Expr.write (refs : References) (e : Expr) : WriteM Unit :=
  e.flatten.forM (Symbolic.write refs)

end WasmBinary
