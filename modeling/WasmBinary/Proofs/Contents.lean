import WasmBinary.Proofs.Frames
import WasmBinary.Proofs.Numbering
import WasmBinary.Proofs.Sections

/-!
# What a binary says

`Contents.ofBytes?` reads a binary to its end, each section by the rules of the revision that the header names. A rendered module is
always read back, and what is read back says what the module says (`Module.render_represents`): every list in the order of the
module, every function and signature by the number under which it stands in the lists of functions and signatures.
-/

namespace WasmBinary

open ByteReader

/-! ## Function bodies -/

/-- A function body, read to its end. -/
structure Body where
  /-- The locals that are not parameters. -/
  locals : List LocalRun
  /-- The instructions. -/
  code : List Instr
  deriving DecidableEq, Repr

/-- A function body, if its bytes are runs of locals and instructions and nothing else. -/
def Body.ofBytes? (bytes : List UInt8) : Option Body := do
  let entry ← BodyEntry.ofBytes? bytes
  return ⟨entry.locals, ← toEnd Instr.read entry.code⟩

/-- The instructions after the code of a body. -/
def Revision.closing : Revision → List Instr
  | .v11 => []
  | .v12 => [.end_]

theorem Revision.bodyEnd_eq (r : Revision) : r.bodyEnd = r.closing.flatMap Instr.bytes := by
  cases r <;> rfl

/-- What a function's locals are read back as. -/
def Function.storedRuns (f : Function) : List LocalRun :=
  (LocalRun.ofTypes f.vars.toList).map LocalRun.stored

/-- A body is read back as the locals and the instructions of its function. -/
theorem Numbering.ofBytes?_bodyBytes {n : Numbering} {f : Function} {bytes : List UInt8} (h : n.bodyBytes f = .ok bytes) :
    ∃ code, (Expr.flattenAll f.body).mapM (Symbolic.resolve n.references) = .ok code ∧
      Body.ofBytes? bytes = some ⟨f.storedRuns, code ++ n.revision.closing⟩ := by
  unfold bodyBytes at h
  obtain ⟨vars, hvars, h⟩ := EncodeError.bind_eq_ok.1 h
  obtain ⟨parts, hparts, h⟩ := EncodeError.bind_eq_ok.1 h
  cases h
  have hflat := Expr.flatten_mapM_toBytes_write n.references f.body
  rw [hparts] at hflat
  obtain ⟨code, hcode, hbytes⟩ := EncodeError.map_eq_ok.1 hflat.symm
  refine ⟨code, hcode, ?_⟩
  have hread : Reads (counted LocalRun.read) vars f.storedRuns :=
    readBy_counted LocalRun.readBy_write _ vars hvars
  have hentry : BodyEntry.ofBytes? (vars ++ (code ++ n.revision.closing).flatMap Instr.bytes) =
      some ⟨f.storedRuns, (code ++ n.revision.closing).flatMap Instr.bytes⟩ := by
    unfold BodyEntry.ofBytes?
    rw [hread]
    rfl
  rw [← hbytes, Revision.bodyEnd_eq, List.append_assoc, ← List.flatMap_append]
  unfold Body.ofBytes?
  rw [hentry, Option.bind_eq_bind, Option.bind_some, Instr.toEnd_bytes]
  rfl

/-- An instruction does what a symbolic one stands for: its number is the place of the function or signature that it names. -/
inductive Resolves (m : Module) (r : Revision) (types : List Signature) : Symbolic → Instr → Prop
  | plain (i : Instr) : Resolves m r types (.plain i) i
  | callImport {name : String} {i : UInt32} (hr : r = .v11) (h : m.Selects m.importedFunctions i name) :
    Resolves m r types (.call name) (.callImport i)
  | call {name : String} {i : UInt32} (h : m.Selects (m.numbered r) i name) : Resolves m r types (.call name) (.call i)
  | callIndirect {s : Signature} {t : UInt32} (h : types[t.toNat]? = some s) :
    Resolves m r types (.callIndirect s) (.callIndirect t)

section

variable {n : Numbering} {m : Module} {r : Revision} (h : n.Describes m r)
include h

/-- A call of a name is a call of the function that the name stands for. -/
theorem Numbering.Describes.resolves_callInstr {name : String} {i : Instr} (hi : n.references.callInstr name = .ok i) :
    Resolves m r n.signatures (.call name) i := by
  have hrevision : n.references.revision = r := h.revision
  unfold References.callInstr at hi
  rw [hrevision] at hi
  split at hi
  · rename_i j hj
    obtain rfl := Except.ok.inj hi
    cases r with
    | v11 =>
      refine .callImport rfl ((Module.selects_iff fun f hf => ?_).2 (((h.importNumbers rfl).get name j).1 hj))
      rw [← m.importedFunctions_append_defined_perm.mem_iff]
      exact List.mem_append_left _ hf
    | v12 => nomatch hj
  · obtain ⟨j, hj, rfl⟩ := EncodeError.map_eq_ok.1 hi
    exact .call (h.functionNumber_eq_ok.1 hj)

/-- Each symbolic instruction is replaced by one that does what it stands for. -/
theorem Numbering.Describes.resolves {s : Symbolic} {i : Instr} (hi : s.resolve n.references = .ok i) :
    Resolves m r n.signatures s i := by
  cases s with
  | plain j =>
    obtain rfl := Except.ok.inj hi
    exact .plain j
  | call name => exact h.resolves_callInstr hi
  | callIndirect s =>
    obtain ⟨t, ht, rfl⟩ := EncodeError.map_eq_ok.1 hi
    exact .callIndirect (Catalog.number_eq_ok.1 ht)

end

/-! ## The sections of a rendered module -/

/-- The sections of a module, each in its place. -/
structure Slots where
  /-- The signatures. -/
  types : Section
  /-- The imported functions. -/
  imports : Option Section
  /-- The signatures of the defined functions. -/
  functions : Section
  /-- The table, or its size. -/
  table : Option Section
  /-- The memory. -/
  memory : Section
  /-- The exported functions. -/
  exports : Option Section
  /-- The function to start with. -/
  start : Option Section
  /-- The entries of the table. -/
  elements : Option Section
  /-- The bodies. -/
  code : Section
  /-- The segments. -/
  data : Option Section
  /-- The names. -/
  names : Option Section

namespace Slots

/-- The section in the place of a kind, if it is there. -/
def get (s : Slots) : SectionKind → Option Section
  | .types => some s.types
  | .imports => s.imports
  | .functions => some s.functions
  | .table => s.table
  | .memory => some s.memory
  | .exports => s.exports
  | .start => s.start
  | .elements => s.elements
  | .code => some s.code
  | .data => s.data
  | .names => s.names

/-- The binary of the sections that are there. -/
def binary (s : Slots) (r : Revision) : Binary :=
  ⟨r, (SectionKind.all.filterMap s.get).map (Section.frame r)⟩

@[simp] theorem revision_binary (s : Slots) (r : Revision) : (s.binary r).revision = r := rfl

/-- The sections are those of a module whose numbers are known. -/
structure Made (s : Slots) (m : Module) (settings : Settings) (n : Numbering) : Prop where
  types : Section.types n = .ok s.types
  imports : Section.imports n = .ok s.imports
  functions : Section.functions n = .ok s.functions
  table : Section.table m n = .ok s.table
  memory : Section.memory m settings.revision = .ok s.memory
  exports : Section.exports m n = .ok s.exports
  start : Section.start m n = .ok s.start
  elements : Section.elements m n = .ok s.elements
  code : n.codeSection = .ok s.code
  data : Section.data m settings.revision = .ok s.data
  names : n.nameSection settings = .ok s.names

/-- The sections are those of a module whose numbers are known, the code section made by an encoder that starts in the state `before`
and ends in `after`. -/
structure MadeBy {σ : Type} (t : Slots) (encoder : ExprEncoder σ) (m : Module) (settings : Settings) (n : Numbering)
    (before after : σ) : Prop where
  types : Section.types n = .ok t.types
  imports : Section.imports n = .ok t.imports
  functions : Section.functions n = .ok t.functions
  table : Section.table m n = .ok t.table
  memory : Section.memory m settings.revision = .ok t.memory
  exports : Section.exports m n = .ok t.exports
  start : Section.start m n = .ok t.start
  elements : Section.elements m n = .ok t.elements
  code : (Section.code n encoder).run before = .ok t.code after
  data : Section.data m settings.revision = .ok t.data
  names : n.nameSection settings = .ok t.names

theorem madeBy_standardEncoder {t : Slots} {m : Module} {settings : Settings} {n : Numbering} :
    t.MadeBy standardEncoder m settings n () () ↔ t.Made m settings n := by
  have hcode : (Section.code n standardEncoder).run () = .ok t.code () ↔ n.codeSection = .ok t.code := by
    rw [code_standardEncoder, EncodeError.run_lift_eq_ok]
    exact and_iff_left rfl
  constructor
  · intro h
    exact { h with code := hcode.1 h.code }
  · intro h
    exact { h with code := hcode.2 h.code }

end Slots

section

variable {σ : Type} {encoder : ExprEncoder σ} {m : Module} {settings : Settings} {n : Numbering}

/-- The sections of a module are made one by one, in file order. -/
theorem Module.exists_madeBy {sections : List Section} {before after : σ}
    (h : (m.sections settings n encoder).run before = .ok sections after) :
    ∃ t : Slots, t.MadeBy encoder m settings n before after ∧ sections = SectionKind.all.filterMap t.get := by
  unfold Module.sections at h
  obtain ⟨types, htypes, h⟩ := EncodeError.run_lift_bind_eq_ok.1 h
  obtain ⟨imports, himports, h⟩ := EncodeError.run_lift_bind_eq_ok.1 h
  obtain ⟨functions, hfunctions, h⟩ := EncodeError.run_lift_bind_eq_ok.1 h
  obtain ⟨table, htable, h⟩ := EncodeError.run_lift_bind_eq_ok.1 h
  obtain ⟨memory, hmemory, h⟩ := EncodeError.run_lift_bind_eq_ok.1 h
  obtain ⟨exports, hexports, h⟩ := EncodeError.run_lift_bind_eq_ok.1 h
  obtain ⟨start, hstart, h⟩ := EncodeError.run_lift_bind_eq_ok.1 h
  obtain ⟨elements, helements, h⟩ := EncodeError.run_lift_bind_eq_ok.1 h
  obtain ⟨code, s₁, hcode, h⟩ := EncodeError.run_bind_eq_ok.1 h
  obtain ⟨data, hdata, h⟩ := EncodeError.run_lift_bind_eq_ok.1 h
  have hnames : ∃ names, n.nameSection settings = .ok names ∧ sections = [some types, imports, some functions, table, some memory,
      exports, start, elements, some code, data, names].reduceOption ∧ s₁ = after := by
    unfold Numbering.nameSection
    -- the names are lifted inside the test, not the test as a whole, so each branch is taken apart by itself
    cases hname : settings.nameSection with
    | true =>
      rw [hname] at h
      simp only [if_true, ← liftM_map] at h
      obtain ⟨names, hnames, h⟩ := EncodeError.run_lift_bind_eq_ok.1 h
      cases h
      exact ⟨names, hnames, rfl, rfl⟩
    | false =>
      rw [hname] at h
      cases h
      exact ⟨none, rfl, rfl, rfl⟩
  obtain ⟨names, hnames, rfl, rfl⟩ := hnames
  exact ⟨⟨types, imports, functions, table, memory, exports, start, elements, code, data, names⟩,
    ⟨htypes, himports, hfunctions, htable, hmemory, hexports, hstart, helements, hcode, hdata, hnames⟩, rfl⟩

/-- A module that is rendered, with whatever encoder, is read back as its sections. -/
theorem ExprEncoder.exists_slots_of_render {before after : RenderState σ} {bytes : List UInt8}
    (h : (encoder.render settings m).run before = .ok bytes after) :
    ∃ (n : Numbering) (log : Log) (t : Slots), (Numbering.resolve m settings.revision).run before.log = .ok n log ∧
      n.Describes m settings.revision ∧ t.MadeBy encoder m settings n before.encoder after.encoder ∧
      Binary.ofBytes? bytes = some (t.binary settings.revision) := by
  obtain ⟨n, log, sections, frames, hresolve, hsections, hframes, rfl⟩ := exists_sections h
  obtain ⟨t, hmade, rfl⟩ := Module.exists_madeBy hsections
  exact ⟨n, log, t, hresolve, Numbering.resolve_describes hresolve, hmade, Binary.ofBytes?_header_append hframes⟩

/-- A rendered module is read back as its sections. -/
theorem Module.exists_slots_of_render {bytes : List UInt8} (h : m.render settings = .ok bytes) :
    ∃ (n : Numbering) (s : Slots), n.Describes m settings.revision ∧ s.Made m settings n ∧
      Binary.ofBytes? bytes = some (s.binary settings.revision) := by
  obtain ⟨after, hrun⟩ := render_eq_ok.1 h
  obtain ⟨n, log, s, -, hn, hmade, hbytes⟩ := ExprEncoder.exists_slots_of_render hrun
  exact ⟨n, s, hn, Slots.madeBy_standardEncoder.1 hmade, hbytes⟩

theorem Section.kind_of_code {before after : σ} {s : Section} (h : (code n encoder).run before = .ok s after) : s.kind = .code := by
  unfold code at h
  obtain ⟨_, -, h⟩ := EncodeError.run_lift_bind_eq_ok.1 h
  obtain ⟨_, _, -, h⟩ := EncodeError.run_bind_eq_ok.1 h
  cases h
  rfl

/-- Each section is of the kind of its place. -/
theorem Slots.MadeBy.kind_get {t : Slots} {before after : σ} (h : t.MadeBy encoder m settings n before after) (kind : SectionKind) :
    ∀ s ∈ t.get kind, s.kind = kind := by
  intro s hs
  cases kind with
  | types => exact Option.some.inj hs ▸ Section.kind_of_ofWriter h.types
  | imports => exact Section.kind_of_ofWriter_unless h.imports s hs
  | functions => exact Option.some.inj hs ▸ Section.kind_of_ofWriter h.functions
  | table => exact Section.kind_of_ofWriter_unless h.table s hs
  | memory => exact Option.some.inj hs ▸ Section.kind_of_ofWriter h.memory
  | exports => exact Section.kind_of_ofWriter_unless h.exports s hs
  | start =>
    obtain ⟨v, hv, -⟩ := Section.says_start h.start
    exact Section.kind_of_rel hv s hs
  | elements => exact Section.kind_of_ofWriter_unless h.elements s hs
  | code => exact Option.some.inj hs ▸ Section.kind_of_code h.code
  | data => exact Section.kind_of_ofWriter_unless h.data s hs
  | names => exact Section.kind_of_rel (Section.says_names h.names) s hs

end

/-! ## Reading a binary to its end -/

namespace Binary

variable {α : Type}

/-- What the section of a kind says, if the binary has it; fails if the section does not say anything that `r` can read. -/
def section? (b : Binary) (kind : SectionKind) (r : ByteReader α) : Option (Option α) :=
  (b.payload? kind).mapM r.whole

/-- The size of the table, where the table section gives it, and the entries. -/
def table? (b : Binary) : Option (Option UInt32 × List UInt32) :=
  match b.revision with
  | .v11 => do
    let entries ← b.section? .table readIndexes
    return (none, entries.getD [])
  | .v12 => do
    let size ← b.section? .table readTableSize
    let entries ← b.section? .elements readElements
    return (size, entries.getD [])

end Binary

/-- All that a binary says. -/
structure Contents where
  /-- The revision that the header names. -/
  revision : Revision
  /-- The signatures. -/
  types : List Signature
  /-- The imported functions. -/
  imports : List ImportEntry
  /-- The signatures of the defined functions, by number. -/
  functions : List UInt32
  /-- The size of the table, where the table section gives it. -/
  tableSize : Option UInt32
  /-- The functions in the table, by number: entries of the table section under revision 0xB, of the element section under 0xC. -/
  table : List UInt32
  /-- The smallest and the largest size of the memory. -/
  memory : UInt32 × UInt32
  /-- The exported functions. -/
  exports : List ExportEntry
  /-- The function to start with, by number. -/
  start : Option UInt32
  /-- The bodies of the defined functions. -/
  bodies : List Body
  /-- The segments. -/
  segments : List Segment
  /-- The names of the defined functions, if they are given. -/
  names : Option (List String)
  deriving DecidableEq, Repr

/-- All that a binary says, if each of its sections can be read and those that every binary has are there. -/
def Binary.contents? (b : Binary) : Option Contents := do
  let types ← (← b.section? .types readTypes)
  let imports ← b.section? .imports (readImports b.revision)
  let functions ← (← b.section? .functions readIndexes)
  let (tableSize, table) ← b.table?
  let memory ← (← b.section? .memory (readMemory b.revision))
  let exports ← b.section? .exports (readExports b.revision)
  let start ← b.section? .start leb
  let blocks ← (← b.section? .code readBodies)
  let bodies ← blocks.mapM Body.ofBytes?
  let segments ← b.section? .data (readSegments b.revision)
  let names ← b.section? .names readNames
  return {
    revision := b.revision
    types := types
    imports := imports.getD []
    functions := functions
    tableSize := tableSize
    table := table
    memory := memory
    exports := exports.getD []
    start := start
    bodies := bodies
    segments := segments.getD []
    names := names }

namespace Contents

/-- All that the bytes of a binary say. -/
def ofBytes? (bytes : List UInt8) : Option Contents := do
  (← Binary.ofBytes? bytes).contents?

/-- The entry gives an imported function: the names that it has at its origin, and its signature. -/
def Imports (c : Contents) (p : Function × ImportSource) (e : ImportEntry) : Prop :=
  e.moduleName = p.2.moduleName.getD "" ∧ e.name = p.2.name ∧ c.types[e.signature.toNat]? = some p.1.signature

/-- The body is that of a function: its locals, and instructions that do what its expressions stand for. -/
def Implements (c : Contents) (m : Module) (f : Function) (body : Body) : Prop :=
  body.locals = f.storedRuns ∧
    ∃ code, List.Forall₂ (Resolves m c.revision c.types) (Expr.flattenAll f.body) code ∧ body.code = code ++ c.revision.closing

/-- The binary says what a module says, every list in the order of the module. -/
structure Represents (c : Contents) (m : Module) (settings : Settings) : Prop where
  /-- The binary is of the revision asked for. -/
  revision : c.revision = settings.revision
  /-- The signatures stand in the order of their first use. -/
  types : c.types = m.signatureUses.eraseDups
  /-- The imported functions are those of the module. -/
  imports : List.Forall₂ c.Imports m.imported c.imports
  /-- The signatures of the defined functions are those of the module. -/
  functions : List.Forall₂ (fun f t => c.types[t.toNat]? = some f.signature) m.defined c.functions
  /-- The size of the table, which revision 0xC gives unless the table is empty, is the number of its entries. -/
  tableSize : c.tableSize.map UInt32.toNat = if c.revision.combined && !m.table.isEmpty then some m.table.length else none
  /-- The entries of the table are the functions that the module names. -/
  table : List.Forall₂ (fun name i => m.Selects (m.numbered c.revision) i name) m.table c.table
  /-- The memory has the size that the module asks for. -/
  memory : c.memory = (m.memorySize, m.memorySize)
  /-- The exported functions are those of the module. -/
  exports : List.Forall₂ (fun p e => e.name = p.2 ∧ m.Selects (m.numbered c.revision) e.function p.1) m.exported c.exports
  /-- The function to start with is the one that the module names. -/
  start : Option.Rel (fun name i => m.Selects (m.numbered c.revision) i name) m.start c.start
  /-- The bodies are those of the defined functions. -/
  bodies : List.Forall₂ (c.Implements m) m.defined c.bodies
  /-- The segments are those of the module. -/
  segments : c.segments = m.segments
  /-- The names are those of the defined functions, where names are asked for. -/
  names : c.names = if settings.nameSection then some (m.defined.map Function.name) else none

end Contents

/-! ## Rendered modules are read back -/

section

variable {σ : Type} {encoder : ExprEncoder σ} {t : Slots} {m : Module} {settings : Settings} {n : Numbering} {before after : σ}

/-- The payload of a kind is that of the section in its place, whatever encoder made it. -/
theorem Slots.MadeBy.payload?_eq (h : t.MadeBy encoder m settings n before after) (r : Revision) (kind : SectionKind) :
    (t.binary r).payload? kind = (t.get kind).map Section.payload :=
  Binary.payload?_filterMap r h.kind_get kind

/-- What a section says is read back from the binary, whatever encoder made it. -/
theorem Slots.MadeBy.section?_eq {α : Type} (h : t.MadeBy encoder m settings n before after) (r : Revision) {kind : SectionKind}
    {reader : ByteReader α} {v : Option α} (hread : Option.Rel (Section.Says kind reader) (t.get kind) v) :
    (t.binary r).section? kind reader = some v := by
  unfold Binary.section?
  rw [h.payload?_eq r kind]
  generalize t.get kind = slot at hread
  cases hread with
  | none => rfl
  | @some t a hread =>
    show some <$> reader.whole t.payload = _
    rw [hread.2]
    rfl

end

section

variable {s : Slots} {m : Module} {settings : Settings} {n : Numbering}

/-- The payload of a kind is that of the section in its place. -/
theorem Slots.Made.payload?_eq (h : s.Made m settings n) (r : Revision) (kind : SectionKind) :
    (s.binary r).payload? kind = (s.get kind).map Section.payload :=
  (madeBy_standardEncoder.2 h).payload?_eq r kind

/-- What a section says is read back from the binary. -/
theorem Slots.Made.section?_eq {α : Type} (h : s.Made m settings n) (r : Revision) {kind : SectionKind} {reader : ByteReader α}
    {v : Option α} (hread : Option.Rel (Section.Says kind reader) (s.get kind) v) :
    (s.binary r).section? kind reader = some v :=
  (madeBy_standardEncoder.2 h).section?_eq r hread

/-- The table is read back: its size, where the revision gives it, and the numbers of its functions. -/
theorem Slots.Made.table?_eq (h : s.Made m settings n) (hr : n.revision = settings.revision) :
    ∃ size entries, (s.binary settings.revision).table? = some (size, entries) ∧
      size.map UInt32.toNat = (if settings.revision.combined && !m.table.isEmpty then some m.table.length else none) ∧
      List.Forall₂ (fun name i => n.functionNumber name = .ok i) m.table entries := by
  unfold Binary.table?
  rw [Slots.revision_binary]
  cases hrevision : settings.revision with
  | v11 =>
    rw [hrevision] at hr
    obtain ⟨v, hread, hv⟩ := Section.says_table_entries hr h.table
    refine ⟨none, v.getD [], ?_, rfl, hv⟩
    rw [h.section?_eq .v11 hread]
    rfl
  | v12 =>
    rw [hrevision] at hr
    obtain ⟨size, hsize, hcount⟩ := Section.says_table_size hr h.table
    obtain ⟨v, hread, hv⟩ := Section.says_elements hr h.elements
    refine ⟨size, v.getD [], ?_, ?_, hv⟩
    · rw [h.section?_eq .v12 hsize, h.section?_eq .v12 hread]
      rfl
    · rw [hcount]
      cases m.table <;> rfl

/-- The bodies are read back as the locals and the instructions of the defined functions. -/
theorem Numbering.exists_bodies {n : Numbering} {fs : List Function} {blocks : List (List UInt8)}
    (h : List.Forall₂ (fun f bytes => n.bodyBytes f = .ok bytes) fs blocks) :
    ∃ bodies, blocks.mapM Body.ofBytes? = some bodies ∧
      List.Forall₂ (fun f body => body.locals = f.storedRuns ∧ ∃ code,
        (Expr.flattenAll f.body).mapM (Symbolic.resolve n.references) = .ok code ∧ body.code = code ++ n.revision.closing)
        fs bodies := by
  induction h with
  | nil => exact ⟨[], rfl, .nil⟩
  | cons hbytes _ ih =>
    obtain ⟨bodies, hbodies, hrel⟩ := ih
    obtain ⟨code, hcode, hbody⟩ := Numbering.ofBytes?_bodyBytes hbytes
    refine ⟨Body.mk _ (code ++ n.revision.closing) :: bodies, ?_, .cons ⟨rfl, code, hcode, rfl⟩ hrel⟩
    rw [List.mapM_cons, hbody, hbodies]
    rfl

/-- The sections of a module are read back as contents that say what the module says. -/
theorem Slots.Made.exists_contents (h : s.Made m settings n) (hn : n.Describes m settings.revision) :
    ∃ c, (s.binary settings.revision).contents? = some c ∧ c.Represents m settings := by
  have hr := hn.revision
  have htypes := Section.says_types h.types
  obtain ⟨imports, himports, imports_rel⟩ := Section.says_imports h.imports
  obtain ⟨functions, functions_rel, hfunctions⟩ := Section.says_functions h.functions
  obtain ⟨tableSize, table, htable, tableSize_eq, table_rel⟩ := h.table?_eq hr
  have hmemory := Section.says_memory h.memory
  obtain ⟨exports, hexports, exports_rel⟩ := Section.says_exports h.exports
  obtain ⟨start, hstart, start_rel⟩ := Section.says_start h.start
  obtain ⟨blocks, blocks_rel, hblocks⟩ := Section.says_code h.code
  obtain ⟨bodies, hbodies, bodies_rel⟩ := Numbering.exists_bodies blocks_rel
  obtain ⟨segments, hsegments, segments_eq⟩ := Section.says_data h.data
  have hnames := Section.says_names h.names
  rw [hr] at himports hexports
  rw [hn.imported] at imports_rel
  rw [hn.defined] at functions_rel bodies_rel hnames
  refine ⟨⟨settings.revision, n.signatures, imports.getD [], functions, tableSize, table, (m.memorySize, m.memorySize),
    exports.getD [], start, bodies, segments.getD [],
    if settings.nameSection then some (m.defined.map Function.name) else none⟩, ?_, ?_⟩
  · unfold Binary.contents?
    rw [Slots.revision_binary, h.section?_eq settings.revision (.some htypes),
      h.section?_eq settings.revision himports, h.section?_eq settings.revision (.some hfunctions), htable,
      h.section?_eq settings.revision (.some hmemory), h.section?_eq settings.revision hexports,
      h.section?_eq settings.revision hstart, h.section?_eq settings.revision (.some hblocks),
      h.section?_eq settings.revision hsegments, h.section?_eq settings.revision hnames]
    simp only [Option.bind_eq_bind, Option.bind_some, hbodies]
    rfl
  · have hsignature : ∀ {f : Function} {i : UInt32}, n.signatureNumber f = .ok i → n.signatures[i.toNat]? = some f.signature :=
      fun hi => Catalog.number_eq_ok.1 hi
    exact {
      revision := rfl
      types := hn.signatures
      imports := imports_rel.imp fun _ _ he => ⟨he.1, he.2.1, hsignature he.2.2⟩
      functions := functions_rel.imp fun _ _ => hsignature
      tableSize := tableSize_eq
      table := table_rel.imp fun _ _ hi => hn.functionNumber_eq_ok.1 hi
      memory := rfl
      exports := exports_rel.imp fun _ _ he => ⟨he.1, hn.functionNumber_eq_ok.1 he.2⟩
      start := rel_imp (fun _ _ hi => hn.functionNumber_eq_ok.1 hi) start_rel
      bodies := bodies_rel.imp fun f body hbody => by
        obtain ⟨hlocals, code, hcode, hclosed⟩ := hbody
        refine ⟨hlocals, code, (EncodeError.mapM_eq_ok.1 hcode).imp fun _ _ hi => hn.resolves hi, ?_⟩
        rw [hclosed, hr]
      segments := segments_eq
      names := rfl }

/-- A rendered module is read back, and what is read back says what the module says. -/
theorem Module.render_represents {bytes : List UInt8} (h : m.render settings = .ok bytes) :
    ∃ c, Contents.ofBytes? bytes = some c ∧ c.Represents m settings := by
  obtain ⟨n, s, hn, hmade, hbytes⟩ := Module.exists_slots_of_render h
  obtain ⟨c, hc, hrepresents⟩ := hmade.exists_contents hn
  refine ⟨c, ?_, hrepresents⟩
  unfold Contents.ofBytes?
  rw [hbytes]
  exact hc

end

/-! ## A module with every kind of section -/

namespace Module

/-- An imported function and two defined ones, which call each other, by name and through the table. -/
def sample : Module :=
  let log := { Function.imported "log" none "print" with params := #[.i32] }
  let add := { Function.new "add" with
    params := #[.i32, .i32]
    vars := #[.f64, .f64, .i32]
    result := some .i32
    body := [.retValue (.binary .i32Add (.getLocal 0) (.getLocal 1))] }
  let main := { Function.new "main" with
    exportName := some "run"
    body := [
      .call "log" [.call "add" [.i32Const 1, .i32Const 2]],
      .drop (.callIndirect ⟨some .i32, [.i32, .i32]⟩ (.i32Const 1) [.i32Const 3, .call "add" [.i32Const 4, .i32Const 5]])] }
  { functions := ((FunctionTable.empty.insert log).insert add).insert main
    table := ["main", "add", "add"]
    memorySize := 1
    segments := [⟨8, [1, 2, 3]⟩]
    start := some "main" }

theorem exists_render_sample (r : Revision) : ∃ bytes, sample.render ⟨r, true⟩ = .ok bytes := by
  have hok : (sample.render ⟨r, true⟩).isOk = true := by cases r <;> decide +kernel
  exact EncodeError.exists_of_isOk hok

end Module

end WasmBinary
