import WasmBinary.Revision
import WasmBinary.ValueType
import WasmBinary.Signature
import WasmBinary.Text.Unprintable
import WasmBinary.Text.CombiningMark
import WasmBinary.Text.Quoted
import WasmBinary.EncodeError
import WasmBinary.Json.Basic
import WasmBinary.Json.Printer
import WasmBinary.Json.Parser
import WasmBinary.Json.Record
import WasmBinary.Json.Types
import WasmBinary.Settings
import WasmBinary.FloatBits
import WasmBinary.Expr.Basic
import WasmBinary.Leb128
import WasmBinary.ByteWriter
import WasmBinary.Instruction.Basic
import WasmBinary.Expr.Traversal
import WasmBinary.Log
import WasmBinary.Expr.Equality
import WasmBinary.Function
import WasmBinary.Module
import WasmBinary.Catalog
import WasmBinary.Numbering
import WasmBinary.Instruction.Symbolic
import WasmBinary.LocalRun
import WasmBinary.ExprEncoder
import WasmBinary.Frame.Basic
import WasmBinary.Section.Basic
import WasmBinary.Section.Payload
import WasmBinary.Binary.Render
import WasmBinary.ByteReader
import WasmBinary.Frame.Reader
import WasmBinary.Instruction.Reader
import WasmBinary.Section.Reader
import WasmBinary.Binary.Reader
import WasmBinary.Instruction.Nesting
import WasmBinary.Stack.Location
import WasmBinary.Stack.History
import WasmBinary.Problem
import WasmBinary.Proofs.Leb128
import WasmBinary.Proofs.Lists
import WasmBinary.Proofs.Writing
import WasmBinary.Proofs.Reading
import WasmBinary.Proofs.Instructions
import WasmBinary.Proofs.Catalog
import WasmBinary.Proofs.Collector
import WasmBinary.Proofs.Numbering
import WasmBinary.Proofs.Rendering
import WasmBinary.Proofs.Frames
import WasmBinary.Proofs.Sections
import WasmBinary.Proofs.Contents
import WasmBinary.Proofs.CrossReferences
import WasmBinary.Proofs.Revisions
import WasmBinary.Proofs.Faults
import WasmBinary.Proofs.FirstFault
import WasmBinary.Proofs.Lowering
import WasmBinary.Proofs.Container
import WasmBinary.Proofs.Nesting
import WasmBinary.Proofs.TypeSection
import WasmBinary.Proofs.DataSection
import WasmBinary.Proofs.EncodedBodies
import WasmBinary.Proofs.AlikeEncoders
import WasmBinary.Proofs.Locals
import WasmBinary.Proofs.EncoderCalls
import WasmBinary.Proofs.CatalogHistory
import WasmBinary.Proofs.Enumeration
import WasmBinary.Proofs.GrowingReferences
import WasmBinary.Proofs.VisitOrder
import WasmBinary.Proofs.Insertions
import WasmBinary.Proofs.Declarations
import WasmBinary.Proofs.Resolution
import WasmBinary.Proofs.AppendedFunction
import WasmBinary.Proofs.Interleaving
import WasmBinary.Proofs.CallStacks
import WasmBinary.Proofs.SectionFraming
import WasmBinary.Proofs.WriteSteps
import WasmBinary.Proofs.ModuleEquality
import WasmBinary.Proofs.EqualModules
import WasmBinary.Proofs.RenderLog
import WasmBinary.Proofs.SettingsReaders
import WasmBinary.Proofs.LocalRuns
import WasmBinary.Proofs.ShortestLeb128
import WasmBinary.Proofs.SignatureTexts
import WasmBinary.Proofs.JsonText
import WasmBinary.Proofs.JsonRecords
