import WasmBinary.Binary.Render
import WasmBinary.Proofs.Numbering

/-!
# Adding functions to a module

A table of functions is known by its names, in order, and by the function that each name finds (`FunctionTable.eq_of_names_get?`). What
adding a function does to both is said once (`names_insert`, `get?_insert`), and all else follows: which additions can be left out or
exchanged, and what any number of them leaves behind. The names stand in the order in which they were added first, and each finds the
function that was added last (`names_insertAll`, `get?_insertAll`).
-/

namespace WasmBinary

namespace FunctionTable

/-! ## Names and look-ups -/

/-- The names of the functions, in order. -/
def names (t : FunctionTable) : List String := t.toList.map Function.name

theorem nodup_names (t : FunctionTable) : t.names.Nodup := t.names_nodup

@[simp] theorem names_empty : empty.names = [] := rfl

@[simp] theorem get?_empty (name : String) : empty.get? name = none := rfl

/-- A new name goes to the end; one that is there stays where it is. -/
theorem names_insert (t : FunctionTable) (f : Function) :
    (t.insert f).names = if f.name ∈ t.names then t.names else t.names ++ [f.name] :=
  map_name_place f t.toList

/-- A name finds each function of the table that has it. -/
theorem get?_name_of_mem {t : FunctionTable} {f : Function} (h : f ∈ t.toList) : t.get? f.name = some f :=
  Module.find?_name_of_mem t.names_nodup h

/-- A name finds nothing exactly if it is not one of the names. -/
theorem get?_eq_none {t : FunctionTable} {name : String} : t.get? name = none ↔ name ∉ t.names := by
  simp [get?, names]

/-- The functions of the table are what its names find. -/
theorem toList_eq_filterMap (t : FunctionTable) : t.toList = t.names.filterMap t.get? := by
  have hget : ∀ f ∈ t.toList, (t.get? ∘ Function.name) f = some f := fun f hf => get?_name_of_mem hf
  rw [names, List.filterMap_map, List.filterMap_congr hget, List.filterMap_some]

/-- A table is known by its names and what they find. -/
theorem eq_of_names_get? {t u : FunctionTable} (hnames : t.names = u.names) (hget : ∀ name, t.get? name = u.get? name) : t = u := by
  have hlist : t.toList = u.toList := by
    rw [t.toList_eq_filterMap, u.toList_eq_filterMap, hnames, funext hget]
  cases t
  cases u
  simpa using hlist

/-! ## Two additions -/

/-- A function that is added under a name that was just added takes the place of the other one. -/
theorem insert_insert_of_name_eq (t : FunctionTable) {f g : Function} (h : f.name = g.name) : (t.insert f).insert g = t.insert g := by
  refine eq_of_names_get? ?_ fun name => ?_
  · rw [names_insert, names_insert, names_insert, h]
    split <;> simp_all
  · simp only [get?_insert, h]
    split <;> rfl

/-- Two functions of different names can be added in any order exactly if one of the names is there. -/
theorem insert_comm_iff (t : FunctionTable) {f g : Function} (h : f.name ≠ g.name) :
    (t.insert f).insert g = (t.insert g).insert f ↔ f.name ∈ t.names ∨ g.name ∈ t.names := by
  constructor
  · -- if both were new, the one that is added first would stand first
    intro heq
    by_contra hnew
    obtain ⟨hf, hg⟩ := not_or.1 hnew
    have hnames := congrArg names heq
    simp [names_insert, hf, hg, h, h.symm] at hnames
  · intro hold
    refine eq_of_names_get? ?_ fun name => ?_
    · rcases hold with hf | hg
      · by_cases hg : g.name ∈ t.names <;> simp [names_insert, hf, hg]
      · by_cases hf : f.name ∈ t.names <;> simp [names_insert, hf, hg]
    · simp only [get?_insert]
      by_cases hf : f.name = name
      · have hg : g.name ≠ name := fun e => h (hf.trans e.symm)
        simp [hf, hg]
      · simp [hf]

/-! ## Any number of additions -/

/-- Adds functions one after another. -/
def insertAll (t : FunctionTable) (fs : List Function) : FunctionTable := fs.foldl insert t

/-- The names stand in the order in which they were added first. -/
theorem names_insertAll (t : FunctionTable) (fs : List Function) :
    (t.insertAll fs).names = (t.names ++ fs.map Function.name).eraseDups := by
  rw [← foldl_addNew t.nodup_names, List.foldl_map]
  exact (List.foldl_hom names fun t f => (t.names_insert f).symm).symm

end FunctionTable

namespace Function

/-- The function is in a list, and no later one has its name. -/
def LastAdded (fs : List Function) (f : Function) : Prop :=
  ∃ before after, fs = before ++ f :: after ∧ ∀ g ∈ after, g.name ≠ f.name

/-- Two lists have the same names in the order of their first occurrences, and the same function as the last of each name. -/
structure SameHistory (fs gs : List Function) : Prop where
  /-- The names occur for the first time in the same order. -/
  firstNames : (fs.map name).eraseDups = (gs.map name).eraseDups
  /-- The last function of each name is the same. -/
  lastFunctions : ∀ f, LastAdded fs f ↔ LastAdded gs f

@[simp] theorem lastAdded_nil (f : Function) : ¬LastAdded [] f := by
  rintro ⟨before, after, h, -⟩
  simp at h

/-- The first function of a list is the last of its name if no other one has that name. -/
@[simp] theorem lastAdded_cons {fs : List Function} {f g : Function} :
    LastAdded (g :: fs) f ↔ LastAdded fs f ∨ (f = g ∧ ∀ h ∈ fs, h.name ≠ f.name) := by
  constructor
  · rintro ⟨before, after, hfs, hlast⟩
    rcases List.cons_eq_append_iff.1 hfs with ⟨rfl, hcons⟩ | ⟨before', rfl, hfs'⟩
    · obtain ⟨rfl, rfl⟩ := List.cons.inj hcons
      exact .inr ⟨rfl, hlast⟩
    · exact .inl ⟨before', after, hfs', hlast⟩
  · rintro (⟨before, after, rfl, hlast⟩ | ⟨rfl, hlast⟩)
    · exact ⟨g :: before, after, rfl, hlast⟩
    · exact ⟨[], fs, rfl, hlast⟩

end Function

/-- A name finds the function that was added last under it, or what it found before if none was. -/
theorem FunctionTable.get?_insertAll {t : FunctionTable} {fs : List Function} {name : String} {f : Function} :
    (t.insertAll fs).get? name = some f ↔
      (f.name = name ∧ Function.LastAdded fs f) ∨ ((∀ g ∈ fs, g.name ≠ name) ∧ t.get? name = some f) := by
  induction fs generalizing t with
  | nil => simp [insertAll]
  | cons g fs ih =>
    show ((t.insert g).insertAll fs).get? name = some f ↔ _
    rw [ih, get?_insert, Function.lastAdded_cons]
    by_cases hg : g.name = name
    · rw [if_pos hg, Option.some.injEq]
      constructor
      · rintro (⟨hf, hlast⟩ | ⟨hnone, rfl⟩)
        · exact .inl ⟨hf, .inl hlast⟩
        · exact .inl ⟨hg, .inr ⟨rfl, hg ▸ hnone⟩⟩
      · rintro (⟨hf, hlast | ⟨rfl, hnone⟩⟩ | ⟨hnone, -⟩)
        · exact .inl ⟨hf, hlast⟩
        · exact .inr ⟨hf ▸ hnone, rfl⟩
        · exact absurd hg (hnone g List.mem_cons_self)
    · rw [if_neg hg, List.forall_mem_cons]
      constructor
      · rintro (⟨hf, hlast⟩ | ⟨hnone, hget⟩)
        · exact .inl ⟨hf, .inl hlast⟩
        · exact .inr ⟨⟨hg, hnone⟩, hget⟩
      · rintro (⟨hf, hlast | ⟨rfl, -⟩⟩ | ⟨⟨-, hnone⟩, hget⟩)
        · exact .inl ⟨hf, hlast⟩
        · exact absurd hf hg
        · exact .inr ⟨hnone, hget⟩

/-- In a table that was empty, a name finds the function that was added last under it. -/
theorem FunctionTable.get?_insertAll_empty {fs : List Function} {name : String} {f : Function} :
    (empty.insertAll fs).get? name = some f ↔ f.name = name ∧ Function.LastAdded fs f := by
  rw [get?_insertAll, get?_empty]
  simp

namespace FunctionTable

theorem mem_names_insertAll {fs : List Function} {name : String} :
    name ∈ (empty.insertAll fs).names ↔ name ∈ fs.map Function.name := by
  rw [names_insertAll, List.mem_eraseDups, names_empty, List.nil_append]

theorem insertAll_append (t : FunctionTable) (fs gs : List Function) : t.insertAll (fs ++ gs) = (t.insertAll fs).insertAll gs :=
  List.foldl_append

/-- Additions lead to one table exactly if they agree in the order of first names and in the last functions. -/
theorem insertAll_eq_iff {fs gs : List Function} : empty.insertAll fs = empty.insertAll gs ↔ Function.SameHistory fs gs := by
  constructor
  · intro h
    refine ⟨?_, fun f => ?_⟩
    · have hnames := congrArg names h
      rwa [names_insertAll, names_insertAll] at hnames
    · have hget : (empty.insertAll fs).get? f.name = some f ↔ (empty.insertAll gs).get? f.name = some f := by rw [h]
      rw [get?_insertAll_empty, get?_insertAll_empty] at hget
      simpa using hget
  · rintro ⟨hnames, hlast⟩
    refine eq_of_names_get? ?_ fun name => Option.ext fun f => ?_
    · rw [names_insertAll, names_insertAll]
      exact hnames
    · rw [get?_insertAll_empty, get?_insertAll_empty, hlast]

end FunctionTable

namespace Module

/-- Adds functions one after another. -/
def insertFunctions (m : Module) (fs : List Function) : Module := fs.foldl insertFunction m

/-- Adding functions changes the functions, and nothing else. -/
theorem insertFunctions_eq (m : Module) (fs : List Function) :
    m.insertFunctions fs = { m with functions := m.functions.insertAll fs } := by
  induction fs generalizing m with
  | nil => rfl
  | cons f fs ih => exact ih (m.insertFunction f)

end Module

/-- Whatever functions are added to a module that has none, its functions stand in the order in which their names were added first, each of
them is the last that was added under its name, and a name finds that function or none. So adding a function twice in a row is adding it
once, functions of different names can be added in any order exactly if one of the names is there, and additions lead to one module exactly if
they agree in the order of first names and in the last functions. That module is rendered in one way, whatever the settings and the
encoder. -/
theorem insertFunctions_history {m : Module} (hm : m.functions = .empty) (fs : List Function) :
    (m.insertFunctions fs).functions.toList.map Function.name = (fs.map Function.name).eraseDups ∧
      (∀ f ∈ (m.insertFunctions fs).functions.toList, Function.LastAdded fs f) ∧
      (∀ name f, (m.insertFunctions fs).function? name = some f ↔ f.name = name ∧ Function.LastAdded fs f) ∧
      (∀ name, (m.insertFunctions fs).function? name = none ↔ name ∉ fs.map Function.name) ∧
      (∀ f, m.insertFunctions (fs ++ [f, f]) = m.insertFunctions (fs ++ [f])) ∧
      (∀ f g, f.name ≠ g.name → (m.insertFunctions (fs ++ [f, g]) = m.insertFunctions (fs ++ [g, f]) ↔
        f.name ∈ fs.map Function.name ∨ g.name ∈ fs.map Function.name)) ∧
      ∀ gs, (m.insertFunctions fs = m.insertFunctions gs ↔ Function.SameHistory fs gs) ∧
        (Function.SameHistory fs gs → ∀ (σ : Type) (encoder : ExprEncoder σ) (settings : Settings) (state : RenderState σ),
          (encoder.render settings (m.insertFunctions fs)).run state = (encoder.render settings (m.insertFunctions gs)).run state) := by
  have hfunctions : ∀ gs, m.insertFunctions gs = { m with functions := FunctionTable.empty.insertAll gs } := by
    intro gs
    rw [Module.insertFunctions_eq, hm]
  simp only [hfunctions, FunctionTable.insertAll_append, Module.mk.injEq, and_true]
  refine ⟨FunctionTable.names_insertAll .empty fs, ?_, fun name f => FunctionTable.get?_insertAll_empty, ?_, ?_, ?_, ?_⟩
  · intro f hf
    exact (FunctionTable.get?_insertAll_empty.1 (FunctionTable.get?_name_of_mem hf)).2
  · intro name
    rw [← FunctionTable.mem_names_insertAll]
    exact FunctionTable.get?_eq_none
  · intro f
    exact FunctionTable.insert_insert_of_name_eq _ rfl
  · intro f g hne
    rw [← FunctionTable.mem_names_insertAll, ← FunctionTable.mem_names_insertAll]
    exact FunctionTable.insert_comm_iff _ hne
  · intro gs
    refine ⟨FunctionTable.insertAll_eq_iff, fun hsame σ encoder settings state => ?_⟩
    rw [FunctionTable.insertAll_eq_iff.2 hsame]

/-- A function that is replaced after another one was added keeps its place, as if its last version had been there from the start. -/
theorem insertFunctions_history_replaced :
    let old := Function.new "run"
    let new := { old with result := some .i32, body := [.i32Const 1] }
    let stop := Function.new "stop"
    let m := Module.empty.insertFunctions [old, stop, new]
    m.functions.toList.map Function.name = ["run", "stop"] ∧ m.function? "run" = some new ∧ m.function? "walk" = none ∧
      Function.SameHistory [old, stop, new] [new, stop] ∧ m = Module.empty.insertFunctions [new, stop] ∧
      m.render ⟨.v11, true⟩ = (Module.empty.insertFunctions [new, stop]).render ⟨.v11, true⟩ := by
  intro old new stop m
  have hsame : Function.SameHistory [old, stop, new] [new, stop] := by
    refine ⟨by decide, fun f => ?_⟩
    simp only [Function.lastAdded_cons, Function.lastAdded_nil, false_or]
    constructor
    · rintro ((⟨rfl, -⟩ | ⟨rfl, -⟩) | ⟨rfl, hlater⟩)
      · exact .inr ⟨rfl, by decide⟩
      · exact .inl ⟨rfl, by decide⟩
      · exact absurd rfl (hlater new (by simp))
    · rintro (⟨rfl, -⟩ | ⟨rfl, -⟩)
      · exact .inl (.inr ⟨rfl, by decide⟩)
      · exact .inl (.inl ⟨rfl, by decide⟩)
  obtain ⟨hnames, -, hfinds, hmissing, -, -, hhistory⟩ := insertFunctions_history (m := .empty) rfl [old, stop, new]
  obtain ⟨hmodule, hrender⟩ := hhistory [new, stop]
  refine ⟨hnames.trans (by decide), (hfinds "run" new).2 ⟨rfl, by simp⟩, (hmissing "walk").2 (by decide), hsame,
    hmodule.2 hsame, ?_⟩
  unfold Module.render
  rw [hrender hsame]

end WasmBinary
