import WasmBinary.Signature
import WasmBinary.FloatBits

/-!
# Expressions

A function body is a list of expression trees. Functions are named, not numbered, and an indirect call carries the signature it
expects; numbers enter only when a body is encoded. `Expr.children` lists the operands of a node in the order in which they are
evaluated: conditions before branches, addresses before stored values, arguments before the selector of an indirect call.
-/

namespace WasmBinary

/-- The two-operand operators. -/
inductive BinaryOp where
  | i32Add
  | i32Sub
  | i32Mul
  | i32DivS
  | i32And
  | i32Or
  | i32Xor
  | i32Eq
  | i32Ne
  | i32LtS
  | i32GtS
  | i64Add
  | i64Sub
  | i64Mul
  | f32Add
  | f32Sub
  | f32Mul
  | f32Div
  | f64Add
  | f64Sub
  | f64Mul
  | f64Div
  deriving DecidableEq, Repr, Inhabited

/-- Every two-operand operator. -/
def BinaryOp.all : List BinaryOp :=
  [i32Add, i32Sub, i32Mul, i32DivS, i32And, i32Or, i32Xor, i32Eq, i32Ne, i32LtS, i32GtS, i64Add, i64Sub, i64Mul,
    f32Add, f32Sub, f32Mul, f32Div, f64Add, f64Sub, f64Mul, f64Div]

/-- An expression tree. -/
inductive Expr where
  /-- Traps when reached. -/
  | unreachable
  /-- Does nothing. -/
  | nop
  /-- A sequence whose end is a branch target. -/
  | block (body : List Expr)
  /-- A sequence whose start is a branch target. -/
  | loop (body : List Expr)
  /-- Runs one of two sequences; the second may be empty. -/
  | cond (condition : Expr) (thenBody elseBody : List Expr)
  /-- Leaves `depth` enclosing sequences and one more. -/
  | br (depth : UInt32)
  /-- Branches if the condition is not zero. -/
  | brIf (depth : UInt32) (condition : Expr)
  /-- Leaves the function without a value. -/
  | ret
  /-- Leaves the function with a value. -/
  | retValue (value : Expr)
  /-- Discards a value. -/
  | drop (value : Expr)
  | i32Const (value : Int32)
  | i64Const (value : Int64)
  | f32Const (value : F32)
  | f64Const (value : F64)
  | getLocal (index : UInt32)
  | setLocal (index : UInt32) (value : Expr)
  /-- Reads a value of a type from memory at an address plus a fixed offset. -/
  | load (type : ValueType) (offset : UInt32) (address : Expr)
  /-- Writes a value of a type to memory at an address plus a fixed offset. -/
  | store (type : ValueType) (offset : UInt32) (address value : Expr)
  | binary (op : BinaryOp) (left right : Expr)
  /-- Calls a function by its name. -/
  | call (function : String) (args : List Expr)
  /-- Calls the function that a selector picks from the function table, which has to have a signature. -/
  | callIndirect (signature : Signature) (selector : Expr) (args : List Expr)
  deriving Repr

namespace Expr

instance : Inhabited Expr := ⟨nop⟩

/-- The operands of a node, in the order in which they are evaluated. -/
def children : Expr → List Expr
  | block body => body
  | loop body => body
  | cond c thenBody elseBody => c :: (thenBody ++ elseBody)
  | brIf _ c => [c]
  | retValue v => [v]
  | drop v => [v]
  | setLocal _ v => [v]
  | load _ _ a => [a]
  | store _ _ a v => [a, v]
  | binary _ l r => [l, r]
  | call _ args => args
  | callIndirect _ selector args => args ++ [selector]
  | unreachable | nop | br _ | ret | i32Const _ | i64Const _ | f32Const _ | f64Const _ | getLocal _ => []

/-- An operand is smaller than the node it belongs to. -/
theorem sizeOf_lt_of_mem_children {c e : Expr} (h : c ∈ e.children) : sizeOf c < sizeOf e := by
  cases e with
  | block body | loop body =>
    have : sizeOf c < sizeOf body := List.sizeOf_lt_of_mem h
    simp only [block.sizeOf_spec, loop.sizeOf_spec]
    omega
  | cond d thenBody elseBody =>
    simp only [children, List.mem_cons, List.mem_append] at h
    simp only [cond.sizeOf_spec]
    rcases h with rfl | h | h
    · omega
    · have := List.sizeOf_lt_of_mem h
      omega
    · have := List.sizeOf_lt_of_mem h
      omega
  | brIf _ v | retValue v | drop v | setLocal _ v | load _ _ v =>
    simp only [children, List.mem_singleton] at h
    simp only [h, brIf.sizeOf_spec, retValue.sizeOf_spec, drop.sizeOf_spec, setLocal.sizeOf_spec, load.sizeOf_spec]
    omega
  | store _ _ l r | binary _ l r =>
    simp only [children, List.mem_cons, List.not_mem_nil, or_false] at h
    simp only [store.sizeOf_spec, binary.sizeOf_spec]
    rcases h with rfl | rfl <;> omega
  | call name args =>
    have : sizeOf c < sizeOf args := List.sizeOf_lt_of_mem h
    simp only [call.sizeOf_spec]
    omega
  | callIndirect s selector args =>
    simp only [children, List.mem_append, List.mem_singleton] at h
    simp only [callIndirect.sizeOf_spec]
    rcases h with h | rfl
    · have := List.sizeOf_lt_of_mem h
      omega
    · omega
  | unreachable | nop | br | ret | i32Const | i64Const | f32Const | f64Const | getLocal => simp [children] at h

/-- What holds of a node whenever it holds of its operands holds of every expression. -/
theorem childInduction {P : Expr → Prop} (step : ∀ e, (∀ c ∈ e.children, P c) → P e) (e : Expr) : P e :=
  step e fun c _ => childInduction step c
termination_by sizeOf e
decreasing_by exact sizeOf_lt_of_mem_children ‹_›

end Expr

end WasmBinary
