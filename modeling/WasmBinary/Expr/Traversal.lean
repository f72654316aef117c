import WasmBinary.Expr.Basic

/-!
# Traversals

The two orders in which the nodes of an expression are met: a node before its operands (`preorder`) and after them
(`postorder`). Post-order is the order of evaluation, so the calls of an expression are met in the order in which they happen.
`visit` walks an expression in that order and acts on each node; `visitWhile` does so until it is told to go no further.
-/

namespace WasmBinary

namespace Expr

/-- Every subexpression, each node before its operands. -/
def preorder (e : Expr) : List Expr :=
  e :: e.children.attach.flatMap fun c => preorder c.1
termination_by sizeOf e
decreasing_by exact sizeOf_lt_of_mem_children c.2

/-- Every subexpression, each node after its operands. -/
def postorder (e : Expr) : List Expr :=
  e.children.attach.flatMap (fun c => postorder c.1) ++ [e]
termination_by sizeOf e
decreasing_by exact sizeOf_lt_of_mem_children c.2

/-- A node stands before the nodes of its operands. -/
theorem preorder_eq (e : Expr) : e.preorder = e :: e.children.flatMap preorder := by
  rw [preorder]
  simp [List.flatMap_def]

/-- A node stands after the nodes of its operands. -/
theorem postorder_eq (e : Expr) : e.postorder = e.children.flatMap postorder ++ [e] := by
  rw [postorder]
  simp [List.flatMap_def]

section Visits

variable {m : Type → Type} [Monad m]

/-- Visits the operands of a node in order, then acts on the node. A node is left out, with all that is below it, if `going` says no
when the visit comes to it; a node whose operands are being visited is acted on whatever `going` says by then. -/
def visitWhile (going : m Bool) (action : Expr → m Unit) (e : Expr) : m Unit := do
  if ← going then
    e.children.attach.forM fun c => visitWhile going action c.1
    action e
termination_by sizeOf e
decreasing_by exact sizeOf_lt_of_mem_children c.2

/-- A node is acted on after the visits of its operands. -/
theorem visitWhile_eq (going : m Bool) (action : Expr → m Unit) (e : Expr) :
    e.visitWhile going action = (do
      if ← going then
        e.children.forM (visitWhile going action)
        action e) := by
  have hchildren : ∀ {p : Expr → Prop} (cs : List { c // p c }),
      (cs.forM fun c => visitWhile going action c.1) = (cs.map Subtype.val).forM (visitWhile going action) := by
    intro p cs
    induction cs with
    | nil => rfl
    | cons c cs ih => exact congrArg (fun rest => visitWhile going action c.1 >>= fun _ => rest) ih
  rw [visitWhile, hchildren, List.attach_map_subtype_val]

/-- Visits every node, each after its operands, and acts on it. -/
def visit (action : Expr → m Unit) (e : Expr) : m Unit :=
  e.visitWhile (pure true) action

end Visits

/-- The signature that an indirect call expects. -/
def indirectSignature? : Expr → Option Signature
  | callIndirect s _ _ => some s
  | _ => none

/-- The signatures of all indirect calls in an expression, in the order in which the calls happen, with repetitions. -/
def indirectSignatures (e : Expr) : List Signature :=
  e.postorder.filterMap indirectSignature?

/-- The signatures that are met in an expression are those met in its operands, then its own. -/
theorem indirectSignatures_eq_children (e : Expr) :
    e.indirectSignatures = e.children.flatMap indirectSignatures ++ e.indirectSignature?.toList := by
  unfold indirectSignatures
  rw [postorder_eq, List.filterMap_append, List.filterMap_flatMap]
  cases h : e.indirectSignature? <;> simp [h]

end Expr

end WasmBinary
