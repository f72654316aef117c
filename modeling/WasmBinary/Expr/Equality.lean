import WasmBinary.Expr.Basic

/-!
# Equality of expressions

Two expressions are equal when they have the same shape and equal parts, float constants compared as numbers. The relation is
symmetric and transitive, but an expression with a NaN in it differs from itself.
-/

namespace WasmBinary

namespace Expr

mutual

/-- Equality of two expressions, float constants compared as numbers. -/
def beq : Expr → Expr → Bool
  | unreachable, unreachable => true
  | nop, nop => true
  | block xs, block ys => beqAll xs ys
  | loop xs, loop ys => beqAll xs ys
  | cond c t e, cond c' t' e' => beq c c' && beqAll t t' && beqAll e e'
  | br d, br d' => d == d'
  | brIf d c, brIf d' c' => d == d' && beq c c'
  | ret, ret => true
  | retValue v, retValue v' => beq v v'
  | drop v, drop v' => beq v v'
  | i32Const v, i32Const v' => v == v'
  | i64Const v, i64Const v' => v == v'
  | f32Const v, f32Const v' => v.ieeeEq v'
  | f64Const v, f64Const v' => v.ieeeEq v'
  | getLocal i, getLocal i' => i == i'
  | setLocal i v, setLocal i' v' => i == i' && beq v v'
  | load t o a, load t' o' a' => t == t' && o == o' && beq a a'
  | store t o a v, store t' o' a' v' => t == t' && o == o' && beq a a' && beq v v'
  | binary op l r, binary op' l' r' => op == op' && beq l l' && beq r r'
  | call f xs, call f' ys => f == f' && beqAll xs ys
  | callIndirect s v xs, callIndirect s' v' ys => s == s' && beq v v' && beqAll xs ys
  | _, _ => false

/-- Equality of two lists of expressions, element by element. -/
def beqAll : List Expr → List Expr → Bool
  | [], [] => true
  | x :: xs, y :: ys => beq x y && beqAll xs ys
  | _, _ => false

end

instance : BEq Expr := ⟨beq⟩

end Expr

end WasmBinary
