import WasmBinary.Frame.Reader
import WasmBinary.Instruction.Reader
import WasmBinary.Section.Payload

/-!
# Reading sections

What a section says, read back from its payload: entries in the order of the payload, functions and signatures by number.
-/

namespace WasmBinary

/-- An imported function as a binary describes it. -/
structure ImportEntry where
  /-- The name of the module that provides it. -/
  moduleName : String
  /-- The name of the function in that module. -/
  name : String
  /-- The number of its signature. -/
  signature : UInt32
  deriving DecidableEq, Repr

/-- An exported function as a binary describes it. -/
structure ExportEntry where
  /-- The name under which the function is exported. -/
  name : String
  /-- The number of the function. -/
  function : UInt32
  deriving DecidableEq, Repr

/-- A function body as a binary describes it. -/
structure BodyEntry where
  /-- The locals that are not parameters. -/
  locals : List LocalRun
  /-- The bytes of the code, up to the end of the body. -/
  code : List UInt8
  deriving DecidableEq, Repr

/-- A function type. -/
def Signature.read : ByteReader Signature := do
  ByteReader.expect functionForm
  let params ← ByteReader.counted ByteReader.type
  let flag ← ByteReader.byte
  if flag = 0 then
    return ⟨none, params⟩
  else
    guard (flag = 1)
    return ⟨some (← ByteReader.type), params⟩

/-- A run of locals. -/
def LocalRun.read : ByteReader LocalRun := do
  let count ← ByteReader.leb
  return ⟨count.toNat, ← ByteReader.type⟩

/-- The entries of a type section. -/
def readTypes : ByteReader (List Signature) :=
  ByteReader.counted Signature.read

/-- An entry of an import section. -/
def ImportEntry.read : Revision → ByteReader ImportEntry
  | .v11 => do
    let signature ← ByteReader.leb
    return ⟨← ByteReader.ascii, ← ByteReader.ascii, signature⟩
  | .v12 => do
    let moduleName ← ByteReader.ascii
    let name ← ByteReader.ascii
    ByteReader.expect functionKind
    return ⟨moduleName, name, ← ByteReader.leb⟩

/-- The entries of an import section. -/
def readImports (r : Revision) : ByteReader (List ImportEntry) :=
  ByteReader.counted (ImportEntry.read r)

/-- The signatures of a function section, or the entries of a table, all by number. -/
def readIndexes : ByteReader (List UInt32) :=
  ByteReader.counted ByteReader.leb

/-- The size that a table section of revision 0xC gives. -/
def readTableSize : ByteReader UInt32 := do
  ByteReader.expect 1
  ByteReader.expect anyFunction
  ByteReader.expect 0
  ByteReader.leb

/-- The smallest and the largest size that a memory section gives. -/
def readMemory : Revision → ByteReader (UInt32 × UInt32)
  | .v11 => do
    let smallest ← ByteReader.leb
    let largest ← ByteReader.leb
    ByteReader.expect 1
    return (smallest, largest)
  | .v12 => do
    ByteReader.expect 1
    ByteReader.expect boundedLimits
    return (← ByteReader.leb, ← ByteReader.leb)

/-- An entry of an export section. -/
def ExportEntry.read : Revision → ByteReader ExportEntry
  | .v11 => do
    let function ← ByteReader.leb
    return ⟨← ByteReader.ascii, function⟩
  | .v12 => do
    let name ← ByteReader.ascii
    ByteReader.expect functionKind
    return ⟨name, ← ByteReader.leb⟩

/-- The entries of an export section. -/
def readExports (r : Revision) : ByteReader (List ExportEntry) :=
  ByteReader.counted (ExportEntry.read r)

/-- The entries of the table that an element section fills from its start. -/
def readElements : ByteReader (List UInt32) := do
  ByteReader.expect 1
  ByteReader.expect 0
  ByteReader.expect (Instr.i32Const 0).opcode
  ByteReader.expect 0
  ByteReader.expect endByte
  readIndexes

/-- The bodies of a code section. -/
def readBodies : ByteReader (List (List UInt8)) :=
  ByteReader.counted ByteReader.block

/-- A function body: its locals, and what is left for its code. -/
def BodyEntry.ofBytes? (bytes : List UInt8) : Option BodyEntry := do
  let (locals, code) ← (ByteReader.counted LocalRun.read).run bytes
  return ⟨locals, code⟩

/-- A segment of a data section, its offset read as an unsigned number. -/
def Segment.read : Revision → ByteReader Segment
  | .v11 => do
    let offset ← ByteReader.leb
    return ⟨offset, ← ByteReader.block⟩
  | .v12 => do
    ByteReader.expect 0
    ByteReader.expect (Instr.i32Const 0).opcode
    let offset ← ByteReader.leb
    ByteReader.expect endByte
    return ⟨offset, ← ByteReader.block⟩

/-- The segments of a data section. -/
def readSegments (r : Revision) : ByteReader (List Segment) :=
  ByteReader.counted (Segment.read r)

/-- The names of a name section. -/
def readNames : ByteReader (List String) :=
  ByteReader.counted (do
    let name ← ByteReader.ascii
    ByteReader.expect 0
    return name)

end WasmBinary
