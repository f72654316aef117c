import WasmBinary.Function

/-!
# Modules

A module holds its functions in the order in which their names were first added, at most one of each name, together with a
function table, a memory with initial data, and the name of the function to start with. The parts refer to functions by name;
whether a name exists is found out only when the module is rendered.
-/

namespace WasmBinary

/-- The functions of a module: in order, and no two of one name. -/
structure FunctionTable where
  /-- The functions, in the order in which their names were first added. -/
  toList : List Function
  /-- No two functions have one name. -/
  names_nodup : (toList.map Function.name).Nodup

namespace FunctionTable

/-- The table without functions. -/
def empty : FunctionTable := ⟨[], List.nodup_nil⟩

instance : Inhabited FunctionTable := ⟨empty⟩

/-- Puts a function in the place of the one of its name, or at the end if there is none. -/
def place (f : Function) : List Function → List Function
  | [] => [f]
  | g :: gs => if g.name = f.name then f :: gs else g :: place f gs

/-- Placing a function keeps the names, and adds its own at the end if it is new. -/
theorem map_name_place (f : Function) (fs : List Function) :
    (place f fs).map Function.name =
      if f.name ∈ fs.map Function.name then fs.map Function.name else fs.map Function.name ++ [f.name] := by
  induction fs with
  | nil => simp [place]
  | cons g gs ih =>
    by_cases h : g.name = f.name
    · simp [place, h]
    · have h' : ¬f.name = g.name := fun e => h e.symm
      simp only [place, h, if_false, List.map_cons, ih, List.mem_cons, h', false_or]
      split <;> simp

/-- Adds a function; one of the same name is replaced and keeps its place. -/
def insert (t : FunctionTable) (f : Function) : FunctionTable where
  toList := place f t.toList
  names_nodup := by
    rw [map_name_place]
    split
    · exact t.names_nodup
    · rename_i h
      refine List.nodup_append.mpr ⟨t.names_nodup, by simp, ?_⟩
      intro a ha b hb hab
      rw [List.mem_singleton] at hb
      exact h (hb ▸ hab ▸ ha)

/-- The function of a given name. -/
def get? (t : FunctionTable) (name : String) : Option Function :=
  t.toList.find? (·.name = name)

/-- After placing a function, its name finds it and every other name finds what it found before. -/
theorem find?_place (f : Function) (name : String) (fs : List Function) :
    (place f fs).find? (·.name = name) = if f.name = name then some f else fs.find? (·.name = name) := by
  induction fs with
  | nil => by_cases h : f.name = name <;> simp [place, h]
  | cons g gs ih =>
    by_cases hg : g.name = f.name
    · by_cases h : f.name = name <;> simp [place, hg, h]
    · by_cases h : g.name = name
      · have hf : ¬f.name = name := fun e => hg (h.trans e.symm)
        rw [place, if_neg hg, if_neg hf, List.find?_cons_of_pos (by simpa using h), List.find?_cons_of_pos (by simpa using h)]
      · rw [place, if_neg hg, List.find?_cons_of_neg (by simpa using h), List.find?_cons_of_neg (by simpa using h), ih]

/-- After adding a function, its name finds it and every other name finds what it found before. -/
@[simp] theorem get?_insert (t : FunctionTable) (f : Function) (name : String) :
    (t.insert f).get? name = if f.name = name then some f else t.get? name :=
  find?_place f name t.toList

/-- Equality without regard to order: as many functions, and to each one an equal one of the same name. -/
def beq (t u : FunctionTable) : Bool :=
  t.toList.length == u.toList.length &&
    t.toList.all fun f => match u.get? f.name with
      | some g => f == g
      | none => false

instance : BEq FunctionTable := ⟨beq⟩

end FunctionTable

/-- Initial contents of a stretch of memory. -/
structure Segment where
  /-- The address of the first byte. -/
  offset : UInt32
  /-- The bytes. -/
  data : List UInt8
  deriving DecidableEq, Repr, Inhabited

/-- A module under construction, or ready to be rendered. -/
structure Module where
  /-- The functions, defined and imported. -/
  functions : FunctionTable
  /-- The names that indirect calls select from. -/
  table : List String
  /-- The size of the memory, in pages. -/
  memorySize : UInt32
  /-- The initial contents of the memory. -/
  segments : List Segment
  /-- The name of the function that runs first, if there is one. -/
  start : Option String
  deriving Inhabited

namespace Module

/-- The module without parts. -/
def empty : Module where
  functions := .empty
  table := []
  memorySize := 0
  segments := []
  start := none

/-- Adds a function; one of the same name is replaced and keeps its place. -/
def insertFunction (m : Module) (f : Function) : Module :=
  { m with functions := m.functions.insert f }

/-- Adds a name at the end of the function table. -/
def pushTableEntry (m : Module) (name : String) : Module :=
  { m with table := m.table ++ [name] }

/-- Adds initial memory contents after the others. -/
def pushSegment (m : Module) (s : Segment) : Module :=
  { m with segments := m.segments ++ [s] }

/-- The imported functions, in order, and where they come from. -/
def imported (m : Module) : List (Function × ImportSource) :=
  m.functions.toList.filterMap fun f => f.importSource.map (f, ·)

/-- The functions that are not imported, in order. -/
def defined (m : Module) : List Function :=
  m.functions.toList.filter fun f => !f.isImport

/-- The names of the exported functions, in order, each with the name it is exported under. -/
def exported (m : Module) : List (String × String) :=
  m.functions.toList.filterMap fun f => f.exportName.map (f.name, ·)

/-- The function of a given name. -/
def function? (m : Module) (name : String) : Option Function :=
  m.functions.get? name

/-- Equality of two modules: functions without regard to order, float constants compared as numbers. -/
def beq (m n : Module) : Bool :=
  m.functions == n.functions && m.table == n.table && m.memorySize == n.memorySize && m.segments == n.segments &&
    m.start == n.start

instance : BEq Module := ⟨beq⟩

end Module

end WasmBinary
