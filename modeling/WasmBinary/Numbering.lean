import WasmBinary.Catalog
import Std.Data.TreeMap

/-!
# Numbering

Inside a binary, functions are known by number. Numbers follow the order in which a module enumerates its functions, imported and
defined ones apart: under revision 0xC the imported functions come first and the defined ones go on from there, under revision 0xB
each kind starts at zero. `Numbering.resolve` numbers the functions and signatures of a module; everything that is written later
looks names up in its result.
-/

namespace WasmBinary

/-- The numbers of some functions, by name. -/
abbrev NameTable := Std.TreeMap String UInt32

namespace NameTable

/-- Gives a name the next number. -/
def add (what : String) (t : NameTable) (name : String) : Except EncodeError NameTable := do
  return t.insert name (← narrow what t.size)

/-- Gives names the next numbers, in order. -/
def addAll (what : String) (t : NameTable) (names : List String) : Except EncodeError NameTable :=
  names.foldlM (add what) t

/-- The number of a name. -/
def number (t : NameTable) (name : String) : Except EncodeError UInt32 :=
  match t[name]? with
  | some i => .ok i
  | none => .error (.unresolvedFunction name)

end NameTable

/-- What the code of a module may refer to. -/
structure References where
  /-- The revision to encode for. -/
  revision : Revision
  /-- The numbers of the functions that calls, exports, the table and the start refer to. -/
  functionNumbers : NameTable
  /-- The numbers of the imported functions. -/
  importNumbers : NameTable
  /-- The signatures; a signature's number is its position. -/
  signatures : Catalog

/-- The functions of a module, and the numbers of its functions and signatures under a revision. -/
structure Numbering where
  /-- The numbers, which are what the code may refer to; under revision 0xC both kinds of function numbers are the same. -/
  references : References
  /-- The imported functions and where they come from, in the module's order. -/
  imported : List (Function × ImportSource)
  /-- The functions that the module defines, in the module's order. -/
  defined : List Function

namespace Numbering

/-- The revision whose rules give the numbers. -/
def revision (n : Numbering) : Revision := n.references.revision

/-- The signatures in use. -/
def signatures (n : Numbering) : List Signature := n.references.signatures.signatures

/-- The number of a function. -/
def functionNumber (n : Numbering) (name : String) : Except EncodeError UInt32 :=
  NameTable.number n.references.functionNumbers name

/-- The number of an imported function. -/
def importNumber (n : Numbering) (name : String) : Except EncodeError UInt32 :=
  NameTable.number n.references.importNumbers name

/-- The number of a function's signature. -/
def signatureNumber (n : Numbering) (f : Function) : Except EncodeError UInt32 :=
  n.references.signatures.number f.signature

/-- Numbers the signatures and functions of a module. -/
def resolve (m : Module) (r : Revision) : LogM Numbering := do
  let signatures ← m.catalog
  let imports ← NameTable.addAll "import index" ∅ (m.imported.map fun p => p.1.name)
  let functions ← NameTable.addAll "function index" (if r.combined then imports else ∅) (m.defined.map Function.name)
  LogM.log (.resolved signatures.signatures.length m.imported.length m.defined.length r)
  return {
    references := {
      revision := r
      functionNumbers := functions
      importNumbers := if r.combined then functions else imports
      signatures := signatures }
    imported := m.imported
    defined := m.defined }

end Numbering

end WasmBinary
