import WasmBinary.Binary.Render
import WasmBinary.Section.Reader

/-!
# Reading binaries

A binary is read back as its revision and its framed sections.
-/

namespace WasmBinary

/-- A binary taken apart. -/
structure Binary where
  /-- The revision that the header names. -/
  revision : Revision
  /-- The sections, in file order. -/
  frames : List Frame
  deriving DecidableEq, Repr

namespace Binary

/-- The revision that the header of a binary names, with the bytes after the header. -/
def readHeader : ByteReader Revision := do
  let start ← ByteReader.word32
  guard (start = magic)
  let tag ← ByteReader.word32
  (Revision.ofTag? tag : Option Revision)

/-- The parts of a binary, if its bytes are a header and frames and nothing else. -/
def ofBytes? (bytes : List UInt8) : Option Binary := do
  let (r, rest) ← readHeader.run bytes
  return ⟨r, ← (Frame.read r).toEnd rest⟩

/-- The payload of the section of a kind, if the binary has it. -/
def payload? (b : Binary) (kind : SectionKind) : Option (List UInt8) :=
  (b.frames.find? fun f => f == Frame.of b.revision kind.id kind.name f.payload).map Frame.payload

end Binary

end WasmBinary
