import WasmBinary.Expr.Equality

/-!
# Functions

A function is either defined by a body or imported from the host. Its local variables are numbered in one sequence, parameters
first; a variable is added at the end of its part, so adding a parameter moves every other local up by one.
-/

namespace WasmBinary

/-- Where an imported function comes from. -/
structure ImportSource where
  /-- The name of the module that provides it; `none` is written as the empty name. -/
  moduleName : Option String
  /-- The name of the function in that module. -/
  name : String
  deriving DecidableEq, Repr, Inhabited

/-- A function of a module. -/
structure Function where
  /-- The name by which the module's other parts refer to the function. -/
  name : String
  /-- The types of the parameters. -/
  params : Array ValueType
  /-- The types of the local variables that are not parameters. -/
  vars : Array ValueType
  /-- The type of the result, if there is one. -/
  result : Option ValueType
  /-- The expressions of the body, in order. -/
  body : List Expr
  /-- Where the function is imported from; `none` for a function that the module defines. -/
  importSource : Option ImportSource
  /-- The name under which the function is exported, if it is. -/
  exportName : Option String
  deriving Repr, Inhabited

namespace Function

/-- A function of a given name, without variables, result or body. -/
def new (name : String) : Function where
  name := name
  params := #[]
  vars := #[]
  result := none
  body := []
  importSource := none
  exportName := none

/-- A function imported from the host. -/
def imported (name : String) (moduleName : Option String) (importName : String) : Function :=
  { new name with importSource := some ⟨moduleName, importName⟩ }

/-- The types of all local variables in the order of their numbers: parameters, then the others. -/
def locals (f : Function) : List ValueType :=
  f.params.toList ++ f.vars.toList

/-- Adds a parameter after the others; also gives its number. -/
def pushParam (f : Function) (t : ValueType) : Function × UInt32 :=
  ({ f with params := f.params.push t }, f.params.size.toUInt32)

/-- Adds a local variable after the others; also gives its number, which holds until a parameter is added. -/
def pushVar (f : Function) (t : ValueType) : Function × UInt32 :=
  ({ f with vars := f.vars.push t }, (f.params.size + f.vars.size).toUInt32)

/-- A new parameter comes after the parameters and before the other locals. -/
theorem locals_pushParam (f : Function) (t : ValueType) :
    (f.pushParam t).1.locals = f.params.toList ++ t :: f.vars.toList := by
  simp [pushParam, locals]

/-- A new local comes after all others. -/
theorem locals_pushVar (f : Function) (t : ValueType) : (f.pushVar t).1.locals = f.locals ++ [t] := by
  simp [pushVar, locals]

/-- Whether the function is imported from the host. -/
def isImport (f : Function) : Bool := f.importSource.isSome

/-- The signature of the function. -/
def signature (f : Function) : Signature := ⟨f.result, f.params.toList⟩

/-- Equality of two functions, float constants compared as numbers. -/
def beq (f g : Function) : Bool :=
  f.name == g.name && f.params == g.params && f.vars == g.vars && f.result == g.result &&
    Expr.beqAll f.body g.body && f.importSource == g.importSource && f.exportName == g.exportName

instance : BEq Function := ⟨beq⟩

end Function

end WasmBinary
