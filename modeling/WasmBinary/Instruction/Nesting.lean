import WasmBinary.Instruction.Basic

/-!
# Nesting of instructions

Blocks, loops and conditionals open a level, `end_` closes the innermost one, and `else_` may come once in a conditional.
`Nesting.step` follows the open levels through a sequence of instructions.
-/

namespace WasmBinary

/-- A level that has been opened and not closed. -/
inductive OpenLevel where
  /-- A block, a loop, or a conditional after its `else_`. -/
  | closing
  /-- A conditional before its `else_`. -/
  | branching
  deriving DecidableEq, Repr

/-- The open levels, innermost first. -/
abbrev Nesting := List OpenLevel

namespace Nesting

/-- The open levels after an instruction; `none` if it may not stand there. -/
def step (levels : Nesting) : Instr → Option Nesting
  | .block_ | .loop_ => some (.closing :: levels)
  | .if_ => some (.branching :: levels)
  | .else_ =>
    match levels with
    | .branching :: outer => some (.closing :: outer)
    | _ => none
  | .end_ =>
    match levels with
    | _ :: outer => some outer
    | [] => none
  | _ => some levels

/-- The open levels after a sequence of instructions; `none` if one of them may not stand where it does. -/
def run (levels : Nesting) (code : List Instr) : Option Nesting :=
  code.foldlM step levels

end Nesting

end WasmBinary
