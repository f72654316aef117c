import WasmBinary.Frame.Basic
import WasmBinary.Log

/-!
# Sections

A binary is a sequence of sections of eleven kinds. `SectionKind.all` lists them in the order in which they are written.
-/

namespace WasmBinary

/-- What a section holds. -/
inductive SectionKind where
  | types
  | imports
  | functions
  | table
  | memory
  | exports
  | start
  | elements
  | code
  | data
  | names
  deriving DecidableEq, Repr

namespace SectionKind

/-- Every kind of section, in file order. -/
def all : List SectionKind :=
  [types, imports, functions, table, memory, exports, start, elements, code, data, names]

/-- The number of the kind in a frame of revision 0xC. -/
def id : SectionKind → UInt8
  | types => 1
  | imports => 2
  | functions => 3
  | table => 4
  | memory => 5
  | exports => 7
  | start => 8
  | elements => 9
  | code => 10
  | data => 11
  | names => customId

/-- The name of the kind in a frame of revision 0xB and in log records. -/
def name : SectionKind → String
  | types => "type"
  | imports => "import"
  | functions => "function"
  | table => "table"
  | memory => "memory"
  | exports => "export"
  | start => "start"
  | elements => "element"
  | code => "code"
  | data => "data"
  | names => "name"

end SectionKind

/-- A section, not yet framed. -/
structure Section where
  /-- What the section holds. -/
  kind : SectionKind
  /-- The bytes of the section. -/
  payload : List UInt8
  deriving DecidableEq, Repr

namespace Section

/-- The section of a kind whose payload is written by a computation. -/
def ofWriter (kind : SectionKind) (w : WriteM Unit) : Except EncodeError Section := do
  return ⟨kind, ← w.toBytes⟩

/-- The section in its frame. -/
def frame (r : Revision) (s : Section) : Frame :=
  Frame.of r s.kind.id s.kind.name s.payload

end Section

end WasmBinary
