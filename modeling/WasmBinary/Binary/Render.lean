import WasmBinary.Settings
import WasmBinary.Section.Payload

/-!
# Rendering modules

A rendered module is a header, which names the format and its revision, followed by the framed sections. All sections are made
before any is written, so a module that cannot be rendered leaves no section in the log. A renderer goes on using the state of its
encoder from one module to the next, failed ones included.
-/

namespace WasmBinary

/-- The number at the start of every binary. -/
def magic : UInt32 := 0x6d736100

/-- What a rendering leaves behind, whether or not it succeeds. -/
structure RenderState (σ : Type) where
  /-- The state of the encoder. -/
  encoder : σ
  /-- The log records. -/
  log : Log

/-- A rendering with an encoder whose states are in `σ`. -/
abbrev RenderM (σ : Type) := EStateM EncodeError (RenderState σ)

namespace RenderM

/-- Runs a computation that logs. -/
def logging {σ α : Type} (x : LogM α) : RenderM σ α := fun s =>
  match x.run s.log with
  | .ok a log => .ok a { s with log := log }
  | .error e log => .error e { s with log := log }

/-- Runs a computation on the state of the encoder. -/
def encoding {σ α : Type} (x : EStateM EncodeError σ α) : RenderM σ α := fun s =>
  match x.run s.encoder with
  | .ok a encoder => .ok a { s with encoder := encoder }
  | .error e encoder => .error e { s with encoder := encoder }

end RenderM

/-- Every section of a module that is not left out, in file order. -/
def Module.sections {σ : Type} (m : Module) (settings : Settings) (numbering : Numbering) (encoder : ExprEncoder σ) :
    EStateM EncodeError σ (List Section) := do
  let types ← Section.types numbering
  let imports ← Section.imports numbering
  let functions ← Section.functions numbering
  let table ← Section.table m numbering
  let memory ← Section.memory m settings.revision
  let exports ← Section.exports m numbering
  let start ← Section.start m numbering
  let elements ← Section.elements m numbering
  let code ← Section.code numbering encoder
  let data ← Section.data m settings.revision
  let names ← if settings.nameSection then some <$> Section.names numbering else pure none
  return [some types, imports, some functions, table, some memory, exports, start, elements, some code, data,
    names].reduceOption

/-- Writes the header of a binary. -/
def Revision.writeHeader (r : Revision) : WriteM Unit := do
  WriteM.word32 magic
  WriteM.word32 r.tag

/-- Renders a module: its binary, with the records of the log and the encoder's new state. -/
def ExprEncoder.render {σ : Type} (encoder : ExprEncoder σ) (settings : Settings) (m : Module) :
    RenderM σ (List UInt8) := do
  let numbering ← RenderM.logging (Numbering.resolve m settings.revision)
  let sections ← RenderM.encoding (m.sections settings numbering encoder)
  let header ← settings.revision.writeHeader.toBytes
  let frames ← sections.mapM fun s => do
    RenderM.logging (LogM.log (.sectionWritten s.kind.name s.payload.length))
    (s.frame settings.revision).write.toBytes
  let bytes := header ++ frames.flatten
  RenderM.logging (LogM.log (.rendered bytes.length))
  return bytes

/-- The binary of a module, with instructions encoded by opcode. -/
def Module.render (m : Module) (settings : Settings) : Except EncodeError (List UInt8) :=
  match (standardEncoder.render settings m).run ⟨(), []⟩ with
  | .ok bytes _ => .ok bytes
  | .error e _ => .error e

end WasmBinary
