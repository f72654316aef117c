import WasmBinary.Instruction.Symbolic
import WasmBinary.LocalRun

/-!
# Encoding function bodies

How expressions become bytes is up to an `ExprEncoder`, a machine with a state of its own; `standardEncoder`, which has no state,
writes them as instructions. An encoded body starts with the runs of the locals that are not parameters and goes on with what the
encoder makes of each expression. Under revision 0xC one more `end_` closes it.
-/

namespace WasmBinary

/-- A machine that turns expressions into bytes: at each expression it moves to a new state, and gives bytes or fails. -/
structure ExprEncoder (σ : Type) where
  /-- One step of the machine. -/
  encode : References → Expr → EStateM EncodeError σ (List UInt8)

/-- The encoder that writes an expression as its instructions. -/
def standardEncoder : ExprEncoder Unit where
  encode refs e := do (e.write refs).toBytes

/-- Writes the runs of the locals that are not parameters. -/
def Function.writeVars (f : Function) : WriteM Unit :=
  WriteM.counted LocalRun.write (LocalRun.ofTypes f.vars.toList)

/-- The byte that ends a body or an initializer. -/
def endByte : UInt8 := Instr.end_.opcode

/-- The bytes after the code of a body. -/
def Revision.bodyEnd : Revision → List UInt8
  | .v11 => []
  | .v12 => [endByte]

/-- Encodes the body of a function. -/
def ExprEncoder.body {σ : Type} (encoder : ExprEncoder σ) (numbering : Numbering) (f : Function) :
    EStateM EncodeError σ (List UInt8) := do
  let vars ← f.writeVars.toBytes
  let code ← f.body.mapM (encoder.encode numbering.references)
  return vars ++ code.flatten ++ numbering.revision.bodyEnd

end WasmBinary
