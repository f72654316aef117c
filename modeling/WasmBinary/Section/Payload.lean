import WasmBinary.ExprEncoder
import WasmBinary.Section.Basic

/-!
# Section payloads

What each section of a module holds. The sections that say nothing about the module are left out: imports, exports, start, table,
elements and data appear only if the module has some. The type, function, memory and code sections are always there.
-/

namespace WasmBinary

/-- The byte that introduces a function type. -/
def functionForm : UInt8 := 0x40

/-- The byte that stands for the element type of a function table. -/
def anyFunction : UInt8 := 0x20

/-- The byte that says that an import or an export is a function. -/
def functionKind : UInt8 := 0

/-- The byte that says that a memory has a largest size. -/
def boundedLimits : UInt8 := 1

/-- Segment contents are written in pieces of this many bytes. -/
def dataChunk : Nat := 65536

/-- Writes a function type: its parameters, then its result. -/
def Signature.write (s : Signature) : WriteM Unit := do
  WriteM.byte functionForm
  WriteM.counted WriteM.type s.params
  match s.result with
  | some t => do
    WriteM.byte 1
    WriteM.type t
  | none => WriteM.byte 0

namespace Section

/-- The signatures in use. -/
def types (numbering : Numbering) : Except EncodeError Section :=
  ofWriter .types (WriteM.counted Signature.write numbering.signatures)

/-- Writes an imported function: where it comes from, and the number of its signature. -/
def writeImport (numbering : Numbering) (f : Function) (source : ImportSource) : WriteM Unit := do
  let signature ← numbering.signatureNumber f
  match numbering.revision with
  | .v11 =>
    WriteM.leb signature
    WriteM.ascii (source.moduleName.getD "")
    WriteM.ascii source.name
  | .v12 =>
    WriteM.ascii (source.moduleName.getD "")
    WriteM.ascii source.name
    WriteM.byte functionKind
    WriteM.leb signature

/-- The imported functions. -/
def imports (numbering : Numbering) : Except EncodeError (Option Section) :=
  if numbering.imported.isEmpty then return none
  else some <$> ofWriter .imports (WriteM.counted (fun p => writeImport numbering p.1 p.2) numbering.imported)

/-- The signatures of the functions that the module defines. -/
def functions (numbering : Numbering) : Except EncodeError Section :=
  ofWriter .functions (WriteM.counted (fun f => do WriteM.leb (← numbering.signatureNumber f)) numbering.defined)

/-- Writes the numbers of the functions in the function table. -/
def writeTableEntries (m : Module) (numbering : Numbering) : WriteM Unit :=
  WriteM.counted (fun name => do WriteM.leb (← numbering.functionNumber name)) m.table

/-- The function table: its entries under revision 0xB, its size under revision 0xC. -/
def table (m : Module) (numbering : Numbering) : Except EncodeError (Option Section) :=
  if m.table.isEmpty then return none
  else some <$> ofWriter .table (match numbering.revision with
    | .v11 => writeTableEntries m numbering
    | .v12 => do
      WriteM.byte 1
      WriteM.byte anyFunction
      WriteM.byte 0
      WriteM.len m.table.length)

/-- The memory, whose smallest and largest sizes are the same. -/
def memory (m : Module) (r : Revision) : Except EncodeError Section :=
  ofWriter .memory (match r with
    | .v11 => do
      WriteM.leb m.memorySize
      WriteM.leb m.memorySize
      WriteM.byte 1
    | .v12 => do
      WriteM.byte 1
      WriteM.byte boundedLimits
      WriteM.leb m.memorySize
      WriteM.leb m.memorySize)

/-- Writes an exported function: the number of the function and the name it is exported under. -/
def writeExport (numbering : Numbering) (function exportName : String) : WriteM Unit := do
  let index ← numbering.functionNumber function
  match numbering.revision with
  | .v11 =>
    WriteM.leb index
    WriteM.ascii exportName
  | .v12 =>
    WriteM.ascii exportName
    WriteM.byte functionKind
    WriteM.leb index

/-- The exported functions. -/
def exports (m : Module) (numbering : Numbering) : Except EncodeError (Option Section) :=
  if m.exported.isEmpty then return none
  else some <$> ofWriter .exports (WriteM.counted (fun p => writeExport numbering p.1 p.2) m.exported)

/-- The function to start with. -/
def start (m : Module) (numbering : Numbering) : Except EncodeError (Option Section) :=
  match m.start with
  | none => return none
  | some name => some <$> ofWriter .start (do WriteM.leb (← numbering.functionNumber name))

/-- The entries of the function table, where the table section gives its size only. -/
def elements (m : Module) (numbering : Numbering) : Except EncodeError (Option Section) :=
  if m.table.isEmpty || !numbering.revision.combined then return none
  else some <$> ofWriter .elements (do
    WriteM.leb 1
    WriteM.leb 0
    WriteM.byte (Instr.i32Const 0).opcode
    WriteM.leb 0
    WriteM.byte endByte
    writeTableEntries m numbering)

/-- The bodies of the functions that the module defines, each with its length in front. -/
def code {σ : Type} (numbering : Numbering) (encoder : ExprEncoder σ) : EStateM EncodeError σ Section := do
  let count ← (WriteM.len numbering.defined.length).toBytes
  let bodies ← numbering.defined.mapM fun f => do
    let body ← encoder.body numbering f
    let length ← (WriteM.len body.length).toBytes
    return length ++ body
  return ⟨.code, count ++ bodies.flatten⟩

/-- Writes a segment: its offset, bare or as an initializer, then its contents in pieces of `chunk` bytes. -/
def writeSegment (chunk : Nat) (r : Revision) (s : Segment) : WriteM Unit := do
  match r with
  | .v11 => WriteM.leb s.offset
  | .v12 =>
    WriteM.byte 0
    WriteM.byte (Instr.i32Const 0).opcode
    WriteM.leb s.offset
    WriteM.byte endByte
  WriteM.len s.data.length
  WriteM.chunked chunk s.data

/-- The initial contents of the memory, written in pieces of `chunk` bytes. -/
def dataInChunks (chunk : Nat) (m : Module) (r : Revision) : Except EncodeError (Option Section) :=
  if m.segments.isEmpty then return none
  else some <$> ofWriter .data (WriteM.counted (writeSegment chunk r) m.segments)

/-- The initial contents of the memory. -/
def data (m : Module) (r : Revision) : Except EncodeError (Option Section) :=
  dataInChunks dataChunk m r

/-- Writes the name of a function, without names for its locals. -/
def writeName (f : Function) : WriteM Unit := do
  WriteM.ascii f.name
  WriteM.leb 0

/-- The names of the functions that the module defines. -/
def names (numbering : Numbering) : Except EncodeError Section :=
  ofWriter .names (WriteM.counted writeName numbering.defined)

end Section

end WasmBinary
