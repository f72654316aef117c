import Mathlib.Data.List.Perm.Subperm
import Mathlib.Tactic.Tauto
import WasmBinary.Proofs.Insertions
import WasmBinary.Proofs.VisitOrder

/-!
# Equality of modules

Float constants are compared as numbers: a NaN is equal to nothing and the two zeros are equal. So expressions are equal exactly if
there is no NaN in either and they are the same once every zero has lost its sign (`Expr.beq_iff`), and the same is true of functions
(`Function.beq_iff`). Tables of functions are compared from one side: they have as many functions, and each function of the first one is
found in the second. Since no name stands for two functions, nothing in the second one is left over (`FunctionTable.names_perm_of_beq`), so
tables are equal exactly if every name finds equal functions in both (`FunctionTable.beq_iff`). What equality sees of a module is a view
of it (`Module.view`); modules without NaNs are equal exactly if they have the same view (`Module.beq_iff`).
-/

namespace WasmBinary

/-! ## Floats -/

/-- Two bit patterns stand for one number exactly if neither is a NaN and they are the same with one zero in the place of all. -/
theorem sameNumber_iff {α β : Type} [DecidableEq β] {isNaN isZero : α → Bool} {bits : α → β} (hbits : Function.Injective bits)
    {zero : α} (hzero : isZero zero = true) (x y : α) :
    (!isNaN x && !isNaN y && (bits x == bits y || (isZero x && isZero y))) = true ↔
      isNaN x = false ∧ isNaN y = false ∧ (if isZero x then zero else x) = if isZero y then zero else y := by
  simp only [Bool.and_eq_true, Bool.not_eq_true', Bool.or_eq_true, beq_iff_eq, hbits.eq_iff, and_assoc]
  refine and_congr_right fun _ => and_congr_right fun _ => ?_
  by_cases hx : isZero x = true <;> by_cases hy : isZero y = true
  · simp [hx, hy]
  · have hne : x ≠ y := fun e => hy (e ▸ hx)
    have hne' : zero ≠ y := fun e => hy (e ▸ hzero)
    simp [hx, hy, hne, hne']
  · have hne : x ≠ y := fun e => hx (e ▸ hy)
    have hne' : x ≠ zero := fun e => hx (e ▸ hzero)
    simp [hx, hy, hne, hne']
  · simp [hx, hy]

namespace F32

/-- The same number, a zero without its sign. -/
def unsignZero (x : F32) : F32 := if x.isZero then ⟨0⟩ else x

theorem ieeeEq_iff {x y : F32} :
    x.ieeeEq y = true ↔ x.isNaN = false ∧ y.isNaN = false ∧ x.unsignZero = y.unsignZero :=
  sameNumber_iff (fun _ _ h => congrArg mk h) (by decide) x y

end F32

namespace F64

/-- The same number, a zero without its sign. -/
def unsignZero (x : F64) : F64 := if x.isZero then ⟨0⟩ else x

theorem ieeeEq_iff {x y : F64} :
    x.ieeeEq y = true ↔ x.isNaN = false ∧ y.isNaN = false ∧ x.unsignZero = y.unsignZero :=
  sameNumber_iff (fun _ _ h => congrArg mk h) (by decide) x y

end F64

/-! ## Expressions -/

namespace Expr

/-- A float constant that is a NaN. -/
def isNaN : Expr → Bool
  | f32Const x => x.isNaN
  | f64Const x => x.isNaN
  | _ => false

/-- No subexpression is such, at whatever place in the expression. -/
def Lacks (p : Expr → Bool) (e : Expr) : Prop :=
  ∀ place node, e.at? place = some node → p node = false

mutual

/-- The expression, with every zero without its sign. -/
def unsignZeros : Expr → Expr
  | unreachable => unreachable
  | nop => nop
  | block body => block (unsignZerosAll body)
  | loop body => loop (unsignZerosAll body)
  | cond c thenBody elseBody => cond (unsignZeros c) (unsignZerosAll thenBody) (unsignZerosAll elseBody)
  | br depth => br depth
  | brIf depth c => brIf depth (unsignZeros c)
  | ret => ret
  | retValue v => retValue (unsignZeros v)
  | drop v => drop (unsignZeros v)
  | i32Const v => i32Const v
  | i64Const v => i64Const v
  | f32Const x => f32Const x.unsignZero
  | f64Const x => f64Const x.unsignZero
  | getLocal index => getLocal index
  | setLocal index v => setLocal index (unsignZeros v)
  | load t offset address => load t offset (unsignZeros address)
  | store t offset address v => store t offset (unsignZeros address) (unsignZeros v)
  | binary op l r => binary op (unsignZeros l) (unsignZeros r)
  | call function args => call function (unsignZerosAll args)
  | callIndirect s selector args => callIndirect s (unsignZeros selector) (unsignZerosAll args)

/-- The expressions of a sequence, with every zero without its sign. -/
def unsignZerosAll : List Expr → List Expr
  | [] => []
  | e :: es => unsignZeros e :: unsignZerosAll es

end

/-- The subexpressions at all places are the nodes in post-order. -/
theorem lacks_iff_postorder {p : Expr → Bool} {e : Expr} : e.Lacks p ↔ ∀ node ∈ e.postorder, p node = false := by
  rw [← map_snd_located]
  constructor
  · intro h node hnode
    obtain ⟨⟨place, _⟩, hmem, rfl⟩ := List.mem_map.1 hnode
    exact h place _ (mem_located.1 hmem)
  · intro h place node hnode
    exact h node (List.mem_map.2 ⟨(place, node), mem_located.2 hnode, rfl⟩)

instance (p : Expr → Bool) (e : Expr) : Decidable (e.Lacks p) :=
  decidable_of_iff' _ lacks_iff_postorder

/-- No subexpression is such exactly if the expression is not, and no subexpression of an operand is. -/
theorem lacks_iff {p : Expr → Bool} {e : Expr} : e.Lacks p ↔ p e = false ∧ ∀ c ∈ e.children, c.Lacks p := by
  simp only [lacks_iff_postorder, postorder_eq e, List.mem_append, List.mem_flatMap, List.mem_singleton]
  constructor
  · intro h
    exact ⟨h e (.inr rfl), fun c hc node hnode => h node (.inl ⟨c, hc, hnode⟩)⟩
  · rintro ⟨he, hchildren⟩ node (⟨c, hc, hnode⟩ | rfl)
    · exact hchildren c hc node hnode
    · exact he

/-! Equal expressions are nodes of one kind, and so are expressions that are the same but for the signs of zeros. -/

theorem ctorIdx_unsignZeros (e : Expr) : e.unsignZeros.ctorIdx = e.ctorIdx := by
  cases e <;> rfl

theorem ctorIdx_of_beq {x y : Expr} (h : beq x y = true) : x.ctorIdx = y.ctorIdx := by
  unfold beq at h
  split at h
  all_goals try rfl
  cases h

/-- What holds of the elements of the first list holds of the lists. -/
theorem beqAll_iff_of_forall {xs : List Expr}
    (h : ∀ x ∈ xs, ∀ y, beq x y = true ↔ x.Lacks isNaN ∧ y.Lacks isNaN ∧ x.unsignZeros = y.unsignZeros) (ys : List Expr) :
    beqAll xs ys = true ↔
      (∀ x ∈ xs, x.Lacks isNaN) ∧ (∀ y ∈ ys, y.Lacks isNaN) ∧ unsignZerosAll xs = unsignZerosAll ys := by
  induction xs generalizing ys with
  | nil => cases ys <;> simp [beqAll, unsignZerosAll]
  | cons x xs ih =>
    obtain ⟨hx, hxs⟩ := List.forall_mem_cons.1 h
    cases ys with
    | nil => simp [beqAll, unsignZerosAll]
    | cons y ys =>
      rw [beqAll, Bool.and_eq_true, hx, ih hxs, List.forall_mem_cons, List.forall_mem_cons, unsignZerosAll, unsignZerosAll,
        List.cons.injEq]
      tauto

/-- Expressions are equal exactly if there is no NaN in them and they are the same but for the signs of zeros. -/
theorem beq_iff (x y : Expr) :
    beq x y = true ↔ x.Lacks isNaN ∧ y.Lacks isNaN ∧ x.unsignZeros = y.unsignZeros := by
  induction x using childInduction generalizing y with
  | step x ih =>
    by_cases hkind : x.ctorIdx = y.ctorIdx
    swap
    · refine iff_of_false (fun h => hkind (ctorIdx_of_beq h)) fun h => hkind ?_
      rw [← ctorIdx_unsignZeros, h.2.2, ctorIdx_unsignZeros]
    -- both nodes are of one kind, so only the pairs of one constructor are left
    rw [lacks_iff, lacks_iff (e := y)]
    cases x with
    | unreachable | nop | br | ret | i32Const | i64Const | getLocal =>
      cases y <;> cases hkind
      simp [beq, isNaN, children, unsignZeros]
    | f32Const a | f64Const a =>
      cases y <;> cases hkind
      simp [beq, isNaN, children, unsignZeros, F32.ieeeEq_iff, F64.ieeeEq_iff]
    | brIf _ v | retValue v | drop v | setLocal _ v | load _ _ v =>
      have hv := ih v (List.mem_singleton_self v)
      cases y <;> cases hkind
      simp only [beq, isNaN, children, unsignZeros, hv, List.forall_mem_singleton, Bool.and_eq_true, beq_iff_eq, brIf.injEq,
        retValue.injEq, drop.injEq, setLocal.injEq, load.injEq]
      tauto
    | store _ _ l r | binary _ l r =>
      have hl := ih l (by simp [children])
      have hr := ih r (by simp [children])
      cases y <;> cases hkind
      simp only [beq, isNaN, children, unsignZeros, hl, hr, List.forall_mem_cons, Bool.and_eq_true, beq_iff_eq, store.injEq,
        binary.injEq]
      tauto
    | block xs | loop xs | call _ xs =>
      have hxs : ∀ ys, beqAll xs ys = true ↔ _ := beqAll_iff_of_forall ih
      cases y <;> cases hkind
      simp only [beq, isNaN, children, unsignZeros, hxs, Bool.and_eq_true, beq_iff_eq, block.injEq, loop.injEq, call.injEq]
      tauto
    | cond c thenBody elseBody =>
      simp only [children, List.forall_mem_cons, List.forall_mem_append] at ih
      obtain ⟨hc, hthen, helse⟩ := ih
      cases y <;> cases hkind
      simp only [beq, isNaN, children, unsignZeros, hc, beqAll_iff_of_forall hthen, beqAll_iff_of_forall helse, Bool.and_eq_true,
        List.forall_mem_cons, List.forall_mem_append, cond.injEq]
      tauto
    | callIndirect s selector args =>
      simp only [children, List.forall_mem_append, List.forall_mem_singleton] at ih
      obtain ⟨hargs, hselector⟩ := ih
      cases y <;> cases hkind
      simp only [beq, isNaN, children, unsignZeros, hselector, beqAll_iff_of_forall hargs, Bool.and_eq_true, beq_iff_eq,
        List.forall_mem_append, List.forall_mem_singleton, callIndirect.injEq]
      tauto

theorem beqAll_iff (xs ys : List Expr) :
    beqAll xs ys = true ↔
      (∀ x ∈ xs, x.Lacks isNaN) ∧ (∀ y ∈ ys, y.Lacks isNaN) ∧ unsignZerosAll xs = unsignZerosAll ys :=
  beqAll_iff_of_forall (fun x _ => beq_iff x) ys

end Expr

/-! ## Functions -/

namespace Function

/-- No expression in the body is such, at whatever depth. -/
def Lacks (p : Expr → Bool) (f : Function) : Prop :=
  ∀ e ∈ f.body, e.Lacks p

instance (p : Expr → Bool) (f : Function) : Decidable (f.Lacks p) :=
  inferInstanceAs (Decidable (∀ e ∈ f.body, e.Lacks p))

/-- The function, with every zero in its body without its sign. -/
def unsignZeros (f : Function) : Function :=
  { f with body := Expr.unsignZerosAll f.body }

/-- Functions are equal exactly if there is no NaN in their bodies and they are the same but for the signs of zeros. -/
theorem beq_iff (f g : Function) :
    (f == g) = true ↔ f.Lacks Expr.isNaN ∧ g.Lacks Expr.isNaN ∧ f.unsignZeros = g.unsignZeros := by
  show f.beq g = true ↔ _
  simp only [beq, Bool.and_eq_true, beq_iff_eq, Expr.beqAll_iff, Lacks, unsignZeros, mk.injEq]
  tauto

/-- The functions that two look-ups find, if any, are equal exactly if neither has a NaN and they are the same but for the signs of
zeros. -/
theorem rel_beq_iff (f g : Option Function) :
    Option.Rel (fun f g => (f == g) = true) f g ↔
      (∀ f' ∈ f, f'.Lacks Expr.isNaN) ∧ (∀ g' ∈ g, g'.Lacks Expr.isNaN) ∧ f.map unsignZeros = g.map unsignZeros := by
  cases f <;> cases g <;> simp [beq_iff]

end Function

/-! ## Tables of functions -/

namespace FunctionTable

theorem get?_eq_some {t : FunctionTable} {name : String} {f : Function} : t.get? name = some f ↔ f ∈ t.toList ∧ f.name = name :=
  Module.function?_eq_some (m := { Module.empty with functions := t })

theorem beq_eq_true {t u : FunctionTable} :
    (t == u) = true ↔ t.toList.length = u.toList.length ∧ ∀ f ∈ t.toList, ∃ g, u.get? f.name = some g ∧ (f == g) = true := by
  show beq t u = true ↔ _
  simp only [beq, Bool.and_eq_true, beq_iff_eq, List.all_eq_true]
  refine and_congr_right fun _ => forall₂_congr fun f _ => ?_
  cases u.get? f.name <;> simp

/-- Equal tables have the same names: those of the first one are among those of the second, and there are as many. -/
theorem names_perm_of_beq {t u : FunctionTable} (h : (t == u) = true) : t.names.Perm u.names := by
  obtain ⟨hlength, hfound⟩ := beq_eq_true.1 h
  have hsubset : t.names ⊆ u.names := by
    intro name hname
    obtain ⟨f, hf, rfl⟩ := List.mem_map.1 hname
    obtain ⟨g, hg, -⟩ := hfound f hf
    obtain ⟨hmem, hsame⟩ := get?_eq_some.1 hg
    exact List.mem_map.2 ⟨g, hmem, hsame⟩
  refine (t.nodup_names.subperm hsubset).perm_of_length_le ?_
  simp [names, hlength]

/-- Tables are equal exactly if each name finds equal functions in both, or none. -/
theorem beq_iff {t u : FunctionTable} :
    (t == u) = true ↔ ∀ name, Option.Rel (fun f g => (f == g) = true) (t.get? name) (u.get? name) := by
  constructor
  · intro h name
    cases hname : t.get? name with
    | none =>
      rw [get?_eq_none, (names_perm_of_beq h).mem_iff, ← get?_eq_none] at hname
      rw [hname]
      exact .none
    | some f =>
      obtain ⟨hf, rfl⟩ := get?_eq_some.1 hname
      obtain ⟨g, hg, hfg⟩ := (beq_eq_true.1 h).2 f hf
      rw [hg]
      exact .some hfg
  · intro h
    have hnames : t.names.Perm u.names := by
      refine (List.perm_ext_iff_of_nodup t.nodup_names u.nodup_names).2 fun name => not_iff_not.1 ?_
      rw [← get?_eq_none, ← get?_eq_none]
      have hname := h name
      revert hname
      cases t.get? name <;> cases u.get? name <;> simp
    refine beq_eq_true.2 ⟨?_, fun f hf => ?_⟩
    · simpa [names] using hnames.length_eq
    · have hname := h f.name
      rw [get?_name_of_mem hf] at hname
      cases hg : u.get? f.name with
      | none =>
        rw [hg] at hname
        cases hname
      | some g =>
        rw [hg, Option.rel_some_some] at hname
        exact ⟨g, rfl, hname⟩

/-- What a name finds does not depend on the order of the functions. -/
theorem get?_eq_of_perm {t u : FunctionTable} (h : t.toList.Perm u.toList) : t.get? = u.get? := by
  funext name
  refine Option.ext fun f => ?_
  rw [get?_eq_some, get?_eq_some, h.mem_iff]

end FunctionTable

/-! ## Modules -/

namespace Module

/-- No expression in the body of a function, imported ones included, is such, at whatever depth. -/
def Lacks (p : Expr → Bool) (m : Module) : Prop :=
  ∀ f ∈ m.functions.toList, f.Lacks p

instance (p : Expr → Bool) (m : Module) : Decidable (m.Lacks p) :=
  inferInstanceAs (Decidable (∀ f ∈ m.functions.toList, f.Lacks p))

/-- What equality sees of a module without NaNs. -/
structure View where
  /-- The function that each name stands for, with its zeros without signs. -/
  function? : String → Option Function
  /-- The function table. -/
  table : List String
  /-- The size of the memory. -/
  memorySize : UInt32
  /-- The initial contents of the memory. -/
  segments : List Segment
  /-- The function to start with. -/
  start : Option String

/-- What equality sees of the module. -/
def view (m : Module) : View where
  function? name := (m.function? name).map Function.unsignZeros
  table := m.table
  memorySize := m.memorySize
  segments := m.segments
  start := m.start

theorem lacks_iff {p : Expr → Bool} {m : Module} : m.Lacks p ↔ ∀ name, ∀ f ∈ m.function? name, f.Lacks p := by
  constructor
  · intro h name f hf
    exact h f (function?_eq_some.1 hf).1
  · intro h f hf
    exact h f.name f (function?_eq_some.2 ⟨hf, rfl⟩)

/-- Modules are equal exactly if there is no NaN in them and they have the same view. -/
theorem beq_iff {m n : Module} : (m == n) = true ↔ m.Lacks Expr.isNaN ∧ n.Lacks Expr.isNaN ∧ m.view = n.view := by
  have hfunctions : (m.functions == n.functions) = true ↔ m.Lacks Expr.isNaN ∧ n.Lacks Expr.isNaN ∧
      ∀ name, (m.function? name).map Function.unsignZeros = (n.function? name).map Function.unsignZeros := by
    rw [FunctionTable.beq_iff, lacks_iff, lacks_iff, ← forall_and, ← forall_and]
    exact forall_congr' fun name => Function.rel_beq_iff _ _
  show m.beq n = true ↔ _
  simp only [beq, Bool.and_eq_true, beq_iff_eq, hfunctions, view, View.mk.injEq, funext_iff]
  tauto

/-- The order of the functions is not seen. -/
theorem view_of_perm {m : Module} {t : FunctionTable} (h : t.toList.Perm m.functions.toList) :
    ({ m with functions := t } : Module).view = m.view := by
  have hget : t.get? = m.functions.get? := FunctionTable.get?_eq_of_perm h
  simp only [view, function?, hget]

theorem lacks_of_perm {p : Expr → Bool} {m : Module} {t : FunctionTable} (h : t.toList.Perm m.functions.toList) :
    ({ m with functions := t } : Module).Lacks p ↔ m.Lacks p :=
  ⟨fun hp f hf => hp f (h.mem_iff.2 hf), fun hp f hf => hp f (h.mem_iff.1 hf)⟩

end Module

/-- Equality of modules is symmetric and transitive, and the order of the functions does not matter on either side. A module is equal to
itself exactly if no float constant in the body of any of its functions, imported ones included, is a NaN, at whatever depth. -/
theorem module_beq_partialEquivalence :
    (∀ m n : Module, (m == n) = true → (n == m) = true) ∧
      (∀ l m n : Module, (l == m) = true → (m == n) = true → (l == n) = true) ∧
      (∀ (m n : Module) (t : FunctionTable), t.toList.Perm m.functions.toList →
        (({ m with functions := t } : Module) == n) = (m == n) ∧ (n == { m with functions := t }) = (n == m)) ∧
      ∀ m : Module, (m == m) = true ↔ m.Lacks Expr.isNaN := by
  refine ⟨?_, ?_, ?_, ?_⟩
  · intro m n h
    obtain ⟨hm, hn, hview⟩ := Module.beq_iff.1 h
    exact Module.beq_iff.2 ⟨hn, hm, hview.symm⟩
  · intro l m n h h'
    obtain ⟨hl, -, hview⟩ := Module.beq_iff.1 h
    obtain ⟨-, hn, hview'⟩ := Module.beq_iff.1 h'
    exact Module.beq_iff.2 ⟨hl, hn, hview.trans hview'⟩
  · intro m n t h
    constructor
    · rw [Bool.eq_iff_iff, Module.beq_iff, Module.beq_iff, Module.view_of_perm h, Module.lacks_of_perm h]
    · rw [Bool.eq_iff_iff, Module.beq_iff, Module.beq_iff, Module.view_of_perm h, Module.lacks_of_perm h]
  · intro m
    rw [Module.beq_iff]
    exact ⟨fun h => h.1, fun h => ⟨h, h, rfl⟩⟩

/-- A function, and an imported one with a constant deep in its body. -/
def Module.withConstant (x : F64) : Module :=
  Module.empty.insertFunctions
    [.new "first",
      { Function.imported "second" none "second" with body := [.cond (.getLocal 0) [.nop, .drop (.f64Const x)] []] }]

/-- The functions of the module, the last one first. -/
def Module.reversed (m : Module) : Module :=
  { m with functions := ⟨m.functions.toList.reverse, by
      rw [List.map_reverse, List.nodup_reverse]
      exact m.functions.names_nodup⟩ }

/-- Both zeros are equal, in whatever order the functions stand; a NaN is not equal to itself. -/
theorem module_beq_partialEquivalence_constants :
    let positive := Module.withConstant ⟨0⟩
    let negative := Module.withConstant ⟨0x8000000000000000⟩
    let undefined := Module.withConstant ⟨0x7ff8000000000000⟩
    (positive == negative) = true ∧ (negative == positive) = true ∧ (positive == positive) = true ∧
      (positive.reversed == negative) = true ∧ (undefined == undefined) = false ∧ (undefined.reversed == undefined) = false := by
  intro positive negative undefined
  obtain ⟨hsymm, htrans, horder, hself⟩ := module_beq_partialEquivalence
  have hperm : ∀ m : Module, m.reversed.functions.toList.Perm m.functions.toList := fun m => List.reverse_perm _
  have hzeros : (positive == negative) = true := by decide +kernel
  have hNaN : (undefined == undefined) = false := by
    have hlacks : ¬undefined.Lacks Expr.isNaN := by decide +kernel
    rwa [← hself, Bool.not_eq_true] at hlacks
  refine ⟨hzeros, hsymm _ _ hzeros, htrans _ _ _ hzeros (hsymm _ _ hzeros), ?_, hNaN, ?_⟩
  · exact (horder positive negative _ (hperm positive)).1.trans hzeros
  · exact (horder undefined undefined _ (hperm undefined)).1.trans hNaN

end WasmBinary
