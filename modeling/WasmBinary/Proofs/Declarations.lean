import WasmBinary.Proofs.Locals

/-!
# Declaring locals one by one

A declaration changes the locals of a function and gives the number of the new local (`Declaration.perform`). After any number of them the
parameters stand first, then the other locals, both in the order of their declarations (`Function.locals_declareAll`). Which local a number
stands for later is said without looking at how locals are kept: with another type in a declaration, the local of that number has another
type, and no other has (`Function.StandsFor`). A parameter keeps its number. Any other local moves up by one with each parameter that is
declared after it (`standsFor_iff`).
-/

namespace WasmBinary

namespace Declaration

/-- The type of a parameter. -/
def param? : Declaration → Option ValueType
  | param t => some t
  | var _ => none

/-- The type of a local that is not a parameter. -/
def var? : Declaration → Option ValueType
  | param _ => none
  | var t => some t

/-- The types of the parameters among the declared locals, in order. -/
def paramTypes (ds : List Declaration) : List ValueType := ds.filterMap param?

/-- The types of the other locals, in order. -/
def varTypes (ds : List Declaration) : List ValueType := ds.filterMap var?

/-- The same declaration with another type. -/
def withType (t : ValueType) : Declaration → Declaration
  | param _ => param t
  | var _ => var t

theorem exists_withType_eq (d : Declaration) : ∃ t, d.withType t = d := by
  cases d with
  | param t => exact ⟨t, rfl⟩
  | var t => exact ⟨t, rfl⟩

@[simp] theorem paramTypes_append (ds es : List Declaration) : paramTypes (ds ++ es) = paramTypes ds ++ paramTypes es :=
  List.filterMap_append

@[simp] theorem varTypes_append (ds es : List Declaration) : varTypes (ds ++ es) = varTypes ds ++ varTypes es :=
  List.filterMap_append

@[simp] theorem paramTypes_cons_param (t : ValueType) (ds : List Declaration) : paramTypes (param t :: ds) = t :: paramTypes ds := rfl

@[simp] theorem paramTypes_cons_var (t : ValueType) (ds : List Declaration) : paramTypes (var t :: ds) = paramTypes ds := rfl

@[simp] theorem varTypes_cons_param (t : ValueType) (ds : List Declaration) : varTypes (param t :: ds) = varTypes ds := rfl

@[simp] theorem varTypes_cons_var (t : ValueType) (ds : List Declaration) : varTypes (var t :: ds) = t :: varTypes ds := rfl

/-- Each declaration is of a parameter or of another local. -/
theorem length_paramTypes_add_length_varTypes (ds : List Declaration) : (paramTypes ds).length + (varTypes ds).length = ds.length := by
  induction ds with
  | nil => rfl
  | cons d ds ih =>
    cases d with
    | param t =>
      simp only [paramTypes_cons_param, varTypes_cons_param, List.length_cons]
      omega
    | var t =>
      simp only [paramTypes_cons_var, varTypes_cons_var, List.length_cons]
      omega

end Declaration

open Declaration

namespace Function

/-! ## What declarations leave -/

/-- Declarations add parameters after the parameters, in order. -/
theorem params_declareAll (f : Function) (ds : List Declaration) :
    (f.declareAll ds).params.toList = f.params.toList ++ paramTypes ds := by
  induction ds generalizing f with
  | nil => simp [declareAll, paramTypes]
  | cons d ds ih =>
    show ((f.declare d).declareAll ds).params.toList = _
    rw [ih]
    cases d with
    | param t => simp [declare, pushParam]
    | var t => rfl

/-- Declarations add other locals after the other locals, in order. -/
theorem vars_declareAll (f : Function) (ds : List Declaration) :
    (f.declareAll ds).vars.toList = f.vars.toList ++ varTypes ds := by
  induction ds generalizing f with
  | nil => simp [declareAll, varTypes]
  | cons d ds ih =>
    show ((f.declare d).declareAll ds).vars.toList = _
    rw [ih]
    cases d with
    | param t => rfl
    | var t => simp [declare, pushVar]

/-- The parameters of a new function stand first, then the other locals, both in the order of their declarations. -/
theorem locals_declareAll (name : String) (ds : List Declaration) :
    ((new name).declareAll ds).locals = paramTypes ds ++ varTypes ds := by
  rw [locals, params_declareAll, vars_declareAll]
  rfl

/-! ## Which local a number stands for -/

/-- After some declarations, number `j` stands for the local of the declaration in place `k`: if that declaration had another type, the
function would have this type in place `j`, and the same types everywhere else. -/
def StandsFor (f : Function) (ds : List Declaration) (j k : Nat) : Prop :=
  j < (f.declareAll ds).locals.length ∧ ∀ t, (f.declareAll (ds.modify k (withType t))).locals = (f.declareAll ds).locals.set j t

/-- A declaration has one local. -/
theorem StandsFor.unique {f : Function} {ds : List Declaration} {i j k : Nat} (hi : f.StandsFor ds i k) (hj : f.StandsFor ds j k) :
    i = j := by
  obtain ⟨hlt, hi⟩ := hi
  obtain ⟨-, hj⟩ := hj
  by_contra hne
  have hkeeps : ∀ t, t = (f.declareAll ds).locals[i] := by
    intro t
    have hset := congrArg (fun l => l[i]?) ((hi t).symm.trans (hj t))
    simpa [List.getElem?_set, hlt, Ne.symm hne] using hset
  exact absurd ((hkeeps .i32).trans (hkeeps .i64).symm) (by decide)

/-- The place of a local that is declared between others: a parameter comes after the earlier parameters, any other local after all
parameters and after the earlier ones of its kind. -/
def place (before : List Declaration) (d : Declaration) (after : List Declaration) : Nat :=
  match d with
  | .param _ => (paramTypes before).length
  | .var _ => (paramTypes before).length + (paramTypes after).length + (varTypes before).length

/-- A parameter stays in its place, whatever is declared after it. -/
theorem place_param (before : List Declaration) (t : ValueType) (after : List Declaration) :
    place before (.param t) after = place before (.param t) [] := rfl

/-- Any other local moves up by one with each parameter that is declared after it. -/
theorem place_var (before : List Declaration) (t : ValueType) (after : List Declaration) :
    place before (.var t) after = place before (.var t) [] + (paramTypes after).length := by
  simp only [place, paramTypes, List.filterMap_nil, List.length_nil]
  omega

/-- The locals of a function, taken apart at the place of one of them. -/
theorem locals_split (name : String) (before : List Declaration) (d : Declaration) (after : List Declaration) :
    ∃ left right, left.length = place before d after ∧
      ∀ t, ((new name).declareAll (before ++ d.withType t :: after)).locals = left ++ t :: right := by
  cases d with
  | param u =>
    refine ⟨paramTypes before, paramTypes after ++ (varTypes before ++ varTypes after), rfl, fun t => ?_⟩
    simp [locals_declareAll, withType]
  | var u =>
    refine ⟨paramTypes before ++ paramTypes after ++ varTypes before, varTypes after, by simp [place, Nat.add_assoc], fun t => ?_⟩
    simp [locals_declareAll, withType]

theorem standsFor_place (name : String) (before : List Declaration) (d : Declaration) (after : List Declaration) :
    (new name).StandsFor (before ++ d :: after) (place before d after) before.length := by
  obtain ⟨left, right, hplace, hlocals⟩ := locals_split name before d after
  obtain ⟨u, hu⟩ := d.exists_withType_eq
  have hnow := hlocals u
  rw [hu] at hnow
  refine ⟨?_, fun t => ?_⟩
  · rw [hnow, ← hplace, List.length_append, List.length_cons]
    omega
  · rw [modify_length_append, hlocals t, hnow, ← hplace, List.set_append_right _ _ (Nat.le_refl _), Nat.sub_self, List.set_cons_zero]

/-- A number stands for a declared local exactly if it is the place of that local. -/
theorem standsFor_iff (name : String) {before after : List Declaration} {d : Declaration} {j : Nat} :
    (new name).StandsFor (before ++ d :: after) j before.length ↔ j = place before d after := by
  constructor
  · intro h
    exact h.unique (standsFor_place name before d after)
  · rintro rfl
    exact standsFor_place name before d after

end Function

/-! ## The numbers that declarations give -/

namespace Declaration

/-- Declares a local of a function, and gives its number. -/
def perform : Declaration → StateM Function UInt32
  | param t => modifyGet fun f => (f.pushParam t).swap
  | var t => modifyGet fun f => (f.pushVar t).swap

/-- The number that a declaration gives: how many locals it finds before its own. -/
def number (f : Function) : Declaration → UInt32
  | param _ => f.params.size.toUInt32
  | var _ => (f.params.size + f.vars.size).toUInt32

/-- What declarations give, one after another. -/
def numbers (f : Function) : List Declaration → List UInt32
  | [] => []
  | d :: ds => d.number f :: numbers (f.declare d) ds

theorem run_perform (d : Declaration) (f : Function) : d.perform.run f = (d.number f, f.declare d) := by
  cases d <;> rfl

/-- Each declaration is made in the function that the declarations before it left. -/
theorem run_mapM_perform (f : Function) (ds : List Declaration) :
    (ds.mapM perform).run f = (numbers f ds, f.declareAll ds) := by
  induction ds generalizing f with
  | nil => rfl
  | cons d ds ih =>
    rw [run_mapM_cons, run_perform, ih]
    rfl

theorem length_numbers (f : Function) (ds : List Declaration) : (numbers f ds).length = ds.length := by
  induction ds generalizing f with
  | nil => rfl
  | cons d ds ih => rw [numbers, List.length_cons, List.length_cons, ih]

theorem numbers_append (f : Function) (ds es : List Declaration) :
    numbers f (ds ++ es) = numbers f ds ++ numbers (f.declareAll ds) es := by
  induction ds generalizing f with
  | nil => rfl
  | cons d ds ih =>
    rw [List.cons_append, numbers, numbers, ih]
    rfl

/-- The number that a declaration gives is in the place of the declaration. -/
theorem getElem?_numbers (f : Function) (before : List Declaration) (d : Declaration) (after : List Declaration) :
    (numbers f (before ++ d :: after))[before.length]? = some (d.number (f.declareAll before)) := by
  rw [numbers_append, List.getElem?_append_right (Nat.le_of_eq (length_numbers f before)), length_numbers, Nat.sub_self]
  rfl

/-- The number that a declaration gives in a new function is the place of its local at that time. -/
theorem toNat_number (name : String) (before : List Declaration) (d : Declaration) (h : before.length < 0x100000000) :
    (d.number ((Function.new name).declareAll before)).toNat = Function.place before d [] := by
  have hcount := length_paramTypes_add_length_varTypes before
  have hparams : ((Function.new name).declareAll before).params.size = (paramTypes before).length := by
    rw [← Array.length_toList, Function.params_declareAll]
    simp [Function.new]
  have hvars : ((Function.new name).declareAll before).vars.size = (varTypes before).length := by
    rw [← Array.length_toList, Function.vars_declareAll]
    simp [Function.new]
  cases d with
  | param t =>
    rw [number, hparams]
    exact UInt32.toNat_ofNat_of_lt' (show _ < 0x100000000 by omega)
  | var t =>
    rw [number, hparams, hvars]
    exact UInt32.toNat_ofNat_of_lt' (show _ < 0x100000000 by omega)

end Declaration

/-- Parameters and other locals are declared in any order. The locals of the function are then the parameters, in the order of their
declarations, and after them the others, in the order of theirs; they are what inserting each parameter after the parameters of one list
makes, and the locals that are not parameters are the rest of that list. The number that a parameter gets is the number of parameters
before it, and stands for it whatever is declared later. The number that any other local gets stands for it exactly as long as no parameter
is declared; at the end its number is greater by the number of parameters that were declared after it. -/
theorem declarations_history (name : String) {ds : List Declaration} (h : ds.length < 0x100000000) :
    ∃ numbers f, (ds.mapM Declaration.perform).run (Function.new name) = (numbers, f) ∧ numbers.length = ds.length ∧
      f.locals = paramTypes ds ++ varTypes ds ∧ f.params.toList = paramTypes ds ∧ f.signature.params = paramTypes ds ∧
      f.vars.toList = varTypes ds ∧ f.params.size ≤ f.locals.length ∧ f.locals.drop f.params.size = varTypes ds ∧
      LocalList.empty.declareAll ds = ⟨f.params.size, f.locals⟩ ∧
      ∀ before d after, ds = before ++ d :: after → ∃ i, numbers[before.length]? = some i ∧
        (∀ t, d = .param t → i.toNat = (paramTypes before).length ∧ ∀ later j,
          (Function.new name).StandsFor (before ++ d :: later) j before.length ↔ j = i.toNat) ∧
        ∀ t, d = .var t →
          (∀ j, (Function.new name).StandsFor ds j before.length ↔ j = i.toNat + (paramTypes after).length) ∧
          ∀ later, (Function.new name).StandsFor (before ++ d :: later) i.toNat before.length ↔ paramTypes later = [] := by
  have hparams : ((Function.new name).declareAll ds).params.toList = paramTypes ds := Function.params_declareAll _ ds
  have hvars : ((Function.new name).declareAll ds).vars.toList = varTypes ds := Function.vars_declareAll _ ds
  have hlocals := Function.locals_declareAll name ds
  have hsize : ((Function.new name).declareAll ds).params.size = (paramTypes ds).length := by
    rw [← hparams, Array.length_toList]
  obtain ⟨hcount, hlist⟩ := (LocalList.matches_new name).declareAll ds
  refine ⟨_, _, run_mapM_perform _ ds, length_numbers _ ds, hlocals, hparams, hparams, hvars, ?_, ?_, ?_, ?_⟩
  · rw [hsize, hlocals, List.length_append]
    omega
  · rw [hsize, hlocals, List.drop_left]
  · rw [← hcount, ← hlist]
  · rintro before d after rfl
    have hlt : before.length < 0x100000000 := by
      rw [List.length_append] at h
      omega
    have hnumber := toNat_number name before d hlt
    refine ⟨_, getElem?_numbers _ before d after, ?_, ?_⟩
    · rintro t rfl
      refine ⟨hnumber, fun later j => ?_⟩
      rw [Function.standsFor_iff, hnumber, Function.place_param]
    · rintro t rfl
      refine ⟨fun j => ?_, fun later => ?_⟩
      · rw [Function.standsFor_iff, hnumber, Function.place_var]
      · rw [Function.standsFor_iff, hnumber, Function.place_var before t later, ← List.length_eq_zero_iff]
        omega

/-- The first local gets number 0, as the first parameter does, and is number 2 in the end. -/
theorem declarations_history_interleaved :
    ∃ numbers f, (Declaration.interleaved.mapM Declaration.perform).run (Function.new "mix") = (numbers, f) ∧ numbers = [0, 0, 2, 1, 4] ∧
      f.locals = [.i32, .i64, .f64, .f64, .i32] ∧ (Function.new "mix").StandsFor Declaration.interleaved 2 0 ∧
      (Function.new "mix").StandsFor Declaration.interleaved 0 1 ∧ ¬(Function.new "mix").StandsFor Declaration.interleaved 0 0 := by
  have hlength : Declaration.interleaved.length < 0x100000000 := by decide
  obtain ⟨numbers, f, hrun, -, hlocals, -, -, -, -, -, -, hdeclared⟩ := declarations_history "mix" hlength
  have hnumbers : numbers = [0, 0, 2, 1, 4] := by
    have hfst := congrArg Prod.fst hrun
    exact hfst.symm.trans (by decide)
  rw [hnumbers] at hdeclared
  obtain ⟨i, hi, -, hvar⟩ := hdeclared [] _ _ rfl
  obtain ⟨j, hj, hparam, -⟩ := hdeclared [.var .f64] _ _ rfl
  obtain rfl : 0 = i := Option.some.inj hi
  obtain rfl : 0 = j := Option.some.inj hj
  obtain ⟨hmoved, -⟩ := hvar .f64 rfl
  obtain ⟨-, hstays⟩ := hparam .i32 rfl
  refine ⟨numbers, f, hrun, hnumbers, hlocals, (hmoved 2).2 rfl, (hstays _ 0).2 rfl, fun hzero => ?_⟩
  exact absurd ((hmoved 0).1 hzero) (by decide)

end WasmBinary
