import Mathlib.Algebra.GroupWithZero.Nat
import WasmBinary.Proofs.AlikeEncoders
import WasmBinary.Proofs.Container
import WasmBinary.Proofs.Resolution
import WasmBinary.Proofs.SectionFraming
import WasmBinary.Proofs.TypeSection

/-!
# The log of a rendering

What a rendering adds to the log accounts for what it does. A signature has a record exactly if it enters the catalog, so a log that has the
records of a catalog has those of the catalog that any registrations lead to (`CatalogM.logAfter_registrations`, `CatalogM.log_registerAll`).
The sections are made without a record, and a record of a section is followed by the bytes of its frame (`RenderM.run_finish_eq_ok`), whose
header has a length that is known from the section (`Frame.headerLength`). A section that is made is framed, unless it is too long
(`RenderM.exists_run_finish`), so a rendering that fails has no records of sections. What is shown of the records are lines
(`Log.lines`): those about numbering (`numberingLines`), and then those about writing (`writingLines`).
-/

namespace WasmBinary

open ByteReader

variable {σ : Type}

/-! ## Signatures and numbers -/

/-- The records of signatures that enter a catalog in this order. -/
def LogRecord.registrations (types : List Signature) : Log :=
  types.zipIdx.map fun p => .registered p.2 p.1

namespace CatalogM

/-- A signature that is registered has a record exactly if it enters the catalog. -/
theorem logAfter_registrations (s : Signature) (c : Catalog) (log : Log) :
    logAfter s c (log ++ LogRecord.registrations c.signatures) = log ++ LogRecord.registrations (c.insert s).signatures := by
  unfold logAfter
  split
  · rename_i hs
    rw [Catalog.insert_of_mem hs]
  · rename_i hs
    rw [Catalog.signatures_insert_of_not_mem hs, List.idxOf_eq_length hs]
    simp [LogRecord.registrations, List.zipIdx_append]

/-- So a log that accounts for a catalog does so after any number of registrations. -/
theorem log_registerAll {ss : List Signature} {c c' : Catalog} {log log' : Log} {u : Unit}
    (h : ((registerAll ss).run c).run (log ++ LogRecord.registrations c.signatures) = .ok (u, c') log') :
    log' = log ++ LogRecord.registrations c'.signatures := by
  induction ss generalizing c with
  | nil =>
    cases h
    rfl
  | cons s ss ih =>
    rw [run_registerAll_cons] at h
    split at h
    · rw [logAfter_registrations] at h
      exact ih h
    · nomatch h

end CatalogM

theorem Module.log_catalog {m : Module} {c : Catalog} {log log' : Log} (h : m.catalog.run log = .ok c log') :
    log' = log ++ LogRecord.registrations c.signatures := by
  have hrun := run_catalog_eq_ok.1 h
  -- the empty catalog has no records
  rw [← List.append_nil log] at hrun
  exact CatalogM.log_registerAll (c := .empty) hrun

/-- The records of numbering a module: its distinct signatures as they are met, and then how much there is of what. -/
def Module.numberingRecords (m : Module) (r : Revision) : Log :=
  LogRecord.registrations m.discovered.eraseDups ++
    [.resolved m.discovered.eraseDups.length m.imported.length m.defined.length r]

theorem Numbering.log_resolve {m : Module} {r : Revision} {n : Numbering} {log log' : Log}
    (h : (Numbering.resolve m r).run log = .ok n log') : log' = log ++ m.numberingRecords r := by
  obtain ⟨catalog, log₁, hcatalog, h⟩ := EncodeError.run_bind_eq_ok.1 h
  obtain ⟨imports, himports, h⟩ := EncodeError.run_lift_bind_eq_ok.1 h
  obtain ⟨functions, hfunctions, h⟩ := EncodeError.run_lift_bind_eq_ok.1 h
  have hsignatures := Module.run_catalog hcatalog
  rw [Module.signatureUses_eq] at hsignatures
  cases h
  rw [Module.log_catalog hcatalog, hsignatures]
  exact List.append_assoc ..

/-! ## Lengths of framed sections -/

/-- The number of bytes in front of the payload of a framed section. -/
def Frame.headerLength : Frame → Nat
  | named name payload => (Leb128.unsigned name.length).length + name.length + (Leb128.unsigned payload.length).length
  | numbered _ payload => 1 + (Leb128.unsigned payload.length).length
  | custom name payload =>
    1 + (Leb128.unsigned (custom name payload).contentLength).length + ((Leb128.unsigned name.length).length + name.length)

theorem Frame.length_of_toBytes_write {f : Frame} {bytes : List UInt8} (h : f.write.toBytes = .ok bytes) :
    bytes.length = f.headerLength + f.payload.length := by
  rw [toBytes_write, EncodeError.map_eq_ok] at h
  obtain ⟨header, hheader, rfl⟩ := h
  rw [List.length_append]
  refine congrArg (· + f.payload.length) ?_
  cases f with
  | named name payload =>
    obtain ⟨title, length, htitle, hlength, rfl⟩ := WriteM.toBytes_seq_eq_ok.1 hheader
    obtain ⟨-, -, rfl⟩ := WriteM.toBytes_ascii_eq_ok.1 htitle
    obtain ⟨-, rfl⟩ := WriteM.toBytes_len_eq_ok.1 hlength
    simp only [List.length_append, length_asciiBytes, headerLength]
  | numbered id payload =>
    obtain ⟨number, length, hnumber, hlength, rfl⟩ := WriteM.toBytes_seq_eq_ok.1 hheader
    obtain ⟨-, rfl⟩ := WriteM.toBytes_len_eq_ok.1 hlength
    rw [WriteM.toBytes_byte] at hnumber
    cases hnumber
    simp only [List.length_append, List.length_singleton, headerLength]
  | custom name payload =>
    obtain ⟨title, htitle, hheader⟩ := Section.toBytes_lift_bind_eq_ok.1 hheader
    obtain ⟨number, rest, hnumber, hrest, rfl⟩ := WriteM.toBytes_seq_eq_ok.1 hheader
    obtain ⟨length, title', hlength, htitle', rfl⟩ := WriteM.toBytes_seq_eq_ok.1 hrest
    obtain ⟨-, -, rfl⟩ := WriteM.toBytes_ascii_eq_ok.1 htitle
    obtain ⟨-, rfl⟩ := WriteM.toBytes_len_eq_ok.1 hlength
    rw [WriteM.toBytes_byte] at hnumber
    rw [WriteM.toBytes_raw] at htitle'
    cases hnumber
    cases htitle'
    simp only [List.length_append, List.length_singleton, length_asciiBytes, headerLength, contentLength]
    omega

/-- The header of a binary and its frames, taken together. -/
theorem length_header_append {r : Revision} {sections : List Section} {frames : List (List UInt8)}
    (h : (sections.mapM fun s => (s.frame r).write.toBytes) = .ok frames) :
    (r.header ++ frames.flatten).length =
      8 + ((sections.map (Section.frame r)).map fun f => f.headerLength + f.payload.length).sum := by
  rw [List.length_append, List.length_flatten, List.map_map]
  refine congrArg (8 + ·) (congrArg List.sum ?_)
  have hframes := EncodeError.mapM_eq_ok.1 h
  clear h
  induction hframes with
  | nil => rfl
  | cons hframe _ ih =>
    rw [List.map_cons, List.map_cons, ih, Frame.length_of_toBytes_write hframe]
    rfl

/-! ## Sections -/

/-- The record of a section that is written. -/
def Section.record (s : Section) : LogRecord := .sectionWritten s.kind.name s.payload.length

namespace RenderM

/-- Framing the sections leaves one record for each. -/
theorem log_frames {r : Revision} {sections : List Section} {frames : List (List UInt8)} {s s' : RenderState σ}
    (h : (sections.mapM fun t => do
        logging (LogM.log (.sectionWritten t.kind.name t.payload.length))
        (t.frame r).write.toBytes : RenderM σ (List (List UInt8))).run s = .ok frames s') :
    s'.log = s.log ++ sections.map Section.record := by
  induction sections generalizing frames s s' with
  | nil =>
    cases h
    exact (List.append_nil _).symm
  | cons t sections ih =>
    rw [List.mapM_cons] at h
    obtain ⟨bytes, s₁, hfirst, h₁⟩ := EncodeError.run_bind_eq_ok.1 h
    obtain ⟨rest, s₂, hrest, h₂⟩ := EncodeError.run_bind_eq_ok.1 h₁
    obtain ⟨_, s₃, hlog, hframe⟩ := EncodeError.run_bind_eq_ok.1 hfirst
    obtain ⟨log, hlog, rfl⟩ := run_logging_eq_ok.1 hlog
    obtain ⟨-, rfl⟩ := EncodeError.run_lift_eq_ok.1 hframe
    cases hlog
    cases h₂
    rw [ih hrest]
    exact List.append_assoc ..

/-- What the last part of rendering gives and what it adds to the log. -/
theorem run_finish_eq_ok {settings : Settings} {sections : List Section} {bytes : List UInt8} {s s' : RenderState σ}
    (h : (finish settings sections).run s = .ok bytes s') :
    (∃ frames, (sections.mapM fun t => (t.frame settings.revision).write.toBytes) = .ok frames ∧
        bytes = settings.revision.header ++ frames.flatten) ∧
      s'.log = s.log ++ sections.map Section.record ++ [.rendered bytes.length] := by
  unfold finish at h
  rw [Revision.toBytes_writeHeader] at h
  obtain ⟨header, hheader, h⟩ := EncodeError.run_lift_bind_eq_ok.1 h
  obtain ⟨frames, s₁, hframes, h⟩ := EncodeError.run_bind_eq_ok.1 h
  obtain ⟨_, s₂, hlast, h⟩ := EncodeError.run_bind_eq_ok.1 h
  obtain ⟨log, hlog, rfl⟩ := run_logging_eq_ok.1 hlast
  cases hheader
  cases hlog
  cases h
  exact ⟨⟨frames, (run_frames hframes).1, rfl⟩, congrArg (· ++ _) (log_frames hframes)⟩

theorem yields_finish (settings : Settings) (sections : List Section) :
    Yields (finish settings sections : RenderM σ (List UInt8)) (do
      let frames ← sections.mapM fun t => (t.frame settings.revision).write.toBytes
      return settings.revision.header ++ frames.flatten) := by
  unfold finish
  rw [Revision.toBytes_writeHeader]
  refine (yields_frames settings.revision sections).bind fun frames => ?_
  exact (yields_log _).bind fun _ => yields_pure _

/-- Sections are framed if the lengths that their frames give fit in 32 bits. -/
theorem exists_run_finish {settings : Settings} {sections : List Section}
    (h : ∀ t ∈ sections, (t.frame settings.revision).contentLength < 0x100000000) (s : RenderState σ) :
    ∃ bytes s', (finish settings sections).run s = .ok bytes s' := by
  obtain ⟨frames, hframes⟩ := fault?_eq_none.1 (Section.fault?_frames h)
  have hyields := yields_finish (σ := σ) settings sections
  rw [hframes] at hyields
  exact ⟨_, hyields.exists_run s⟩

/-- Making the sections leaves the log alone. -/
theorem log_of_run_encoding {α : Type} {x : EStateM EncodeError σ α} {s : RenderState σ}
    {result : EStateM.Result EncodeError (RenderState σ) α} (h : (encoding x).run s = result) : (finalState result).log = s.log := by
  rw [← h, finalState_encoding]

end RenderM

/-! ## Whole renderings -/

namespace ExprEncoder

/-- The lengths that the frames of a module give, if all sections can be made. -/
def frameLengths (encoder : ExprEncoder σ) (settings : Settings) (m : Module) (state : σ) : List Nat :=
  match m.plainNumbering settings.revision with
  | .error _ => []
  | .ok n =>
    match (m.sections settings n encoder).run state with
    | .error _ _ => []
    | .ok sections _ => sections.map fun s => (s.frame settings.revision).contentLength

/-- The functions and signatures of a module can be numbered in 32 bits, and so can the bytes of its framed sections. -/
@[mk_iff]
structure WithinLimits (encoder : ExprEncoder σ) (settings : Settings) (m : Module) (state : σ) : Prop where
  /-- The functions can be numbered. -/
  functions : m.functions.toList.length < 0x100000000
  /-- The distinct signatures can be numbered. -/
  signatures : m.discovered.eraseDups.length < 0x100000000
  /-- The lengths in the frames are not too long. -/
  frames : ∀ length ∈ encoder.frameLengths settings m state, length < 0x100000000

instance (encoder : ExprEncoder σ) (settings : Settings) (m : Module) (state : σ) :
    Decidable (encoder.WithinLimits settings m state) :=
  decidable_of_iff' _ (withinLimits_iff encoder settings m state)

variable {encoder : ExprEncoder σ} {settings : Settings} {m : Module} {before after : RenderState σ}

/-- A rendering that succeeds has numbered the module, made its sections and framed them, and has its records of all that. -/
theorem log_of_render {bytes : List UInt8} (h : (encoder.render settings m).run before = .ok bytes after) :
    ∃ (n : Numbering) (t : Slots) (state : σ) (frames : List (List UInt8)),
      n.Describes m settings.revision ∧ t.MadeBy encoder m settings n before.encoder state ∧
      ((SectionKind.all.filterMap t.get).mapM fun s => (s.frame settings.revision).write.toBytes) = .ok frames ∧
      bytes = settings.revision.header ++ frames.flatten ∧
      after.log = before.log ++ (m.numberingRecords settings.revision ++
        ((SectionKind.all.filterMap t.get).map Section.record ++ [.rendered bytes.length])) := by
  rw [render_eq] at h
  obtain ⟨n, s₁, hn, h⟩ := EncodeError.run_bind_eq_ok.1 h
  obtain ⟨log, hresolve, rfl⟩ := RenderM.run_logging_eq_ok.1 hn
  obtain ⟨sections, s₂, hsections, h⟩ := EncodeError.run_bind_eq_ok.1 h
  obtain ⟨⟨frames, hframes, hbytes⟩, hlog⟩ := RenderM.run_finish_eq_ok h
  obtain ⟨t, hmade, rfl⟩ := Module.exists_madeBy (RenderM.run_encoding_eq_ok hsections)
  have hkept : s₂.log = log := RenderM.log_of_run_encoding hsections
  refine ⟨n, t, s₂.encoder, frames, Numbering.resolve_describes hresolve, hmade, hframes, hbytes, ?_⟩
  rw [hlog, hkept, Numbering.log_resolve hresolve]
  simp only [List.append_assoc]

/-- A rendering that fails within limits has numbered the module, and has framed none of its sections. -/
theorem log_of_render_error (hlimits : encoder.WithinLimits settings m before.encoder) {e : EncodeError}
    (h : (encoder.render settings m).run before = .error e after) : after.log = before.log ++ m.numberingRecords settings.revision := by
  have hsignatures : m.signatureUses.eraseDups.length ≤ 0x100000000 := by
    rw [Module.signatureUses_eq]
    exact Nat.le_of_lt hlimits.signatures
  obtain ⟨n, log, hresolve⟩ := Numbering.exists_resolve settings.revision before.log hlimits.functions hsignatures
  rw [run_render_of_resolve hresolve] at h
  rw [← Numbering.log_resolve hresolve]
  rcases EncodeError.run_bind_eq_error.1 h with hsections | ⟨sections, s₂, hsections, hfinish⟩
  · exact RenderM.log_of_run_encoding hsections
  · -- all sections were made, so their frames give lengths within the limits
    have hlengths : ∀ s ∈ sections, (s.frame settings.revision).contentLength < 0x100000000 := by
      have hnumbering : m.plainNumbering settings.revision = .ok n := by
        rw [← m.yields_resolve settings.revision before.log, hresolve]
        rfl
      have hmade := RenderM.run_encoding_eq_ok hsections
      have hframes := hlimits.frames
      simp only [frameLengths, hnumbering] at hframes
      rw [hmade] at hframes
      exact List.forall_mem_map.1 hframes
    obtain ⟨bytes, s₃, hok⟩ := RenderM.exists_run_finish hlengths s₂
    rw [hok] at hfinish
    nomatch hfinish

end ExprEncoder

/-! ## Lines of a log -/

/-- What is shown of a log: the level and the wording of each record. -/
def Log.lines (log : Log) : List (LogLevel × String) :=
  log.map fun record => (record.level, record.message)

theorem Log.lines_append (log log' : Log) : Log.lines (log ++ log') = Log.lines log ++ Log.lines log' :=
  List.map_append

/-- The lines about the signatures that were registered, each with its number, and about how much was numbered. -/
def numberingLines (types : List Signature) (imports defined : Nat) (r : Revision) : List (LogLevel × String) :=
  types.zipIdx.map (fun p => (.trace, "registered signature #" ++ Nat.repr p.2 ++ ": " ++ p.1.text)) ++
    [(.debug, "resolved " ++ Nat.repr types.length ++ " signatures, " ++ Nat.repr imports ++ " imports, " ++ Nat.repr defined ++
      " defined functions for version 0x" ++ Text.hex r.tag.toNat)]

/-- The lines about the sections that were written and about the binary. -/
def writingLines (sections : List Section) (size : Nat) : List (LogLevel × String) :=
  sections.map (fun s => (.debug, s.kind.name ++ " section: " ++ Nat.repr s.payload.length ++ " bytes")) ++
    [(.debug, "rendered module: " ++ Nat.repr size ++ " bytes")]

theorem Log.lines_numbering (types : List Signature) (imports defined : Nat) (r : Revision) :
    Log.lines (LogRecord.registrations types ++ [.resolved types.length imports defined r]) = numberingLines types imports defined r := by
  rw [lines_append]
  exact congrArg (· ++ _) List.map_map

theorem Log.lines_writing (sections : List Section) (size : Nat) :
    Log.lines (sections.map Section.record ++ [.rendered size]) = writingLines sections size := by
  rw [lines_append]
  exact congrArg (· ++ _) List.map_map

/-- The records of a rendering account for its bytes. If it succeeds, they are one for each signature of the type section, in its order,
one of how much was numbered, one for each section of the binary, in file order, with the length of its payload, and a last one with the
length of the binary, which is made up of a header and, for each section, of the header of its frame and its payload. If it fails, for
whatever reason, they end with how much was numbered. The lines that are shown for them have the same order, each with its level and
wording. -/
theorem render_log (encoder : ExprEncoder σ) (settings : Settings) (m : Module) (before : RenderState σ) :
    (∀ bytes after, (encoder.render settings m).run before = .ok bytes after →
      ∃ (b : Binary) (types : List Signature) (sections : List Section),
        Binary.ofBytes? bytes = some b ∧ b.section? .types readTypes = some (some types) ∧ types = m.discovered.eraseDups ∧
        b.frames = sections.map (Section.frame settings.revision) ∧
        sections.map Section.kind = SectionKind.all.filter (m.hasSection settings) ∧
        after.log = before.log ++ (LogRecord.registrations types ++
          .resolved types.length m.imported.length m.defined.length settings.revision ::
            (sections.map Section.record ++ [.rendered bytes.length])) ∧
        Log.lines after.log = Log.lines before.log ++ (numberingLines types m.imported.length m.defined.length settings.revision ++
          writingLines sections bytes.length) ∧
        bytes.length = 8 + (b.frames.map fun f => f.headerLength + f.payload.length).sum) ∧
      (encoder.WithinLimits settings m before.encoder → ∀ e after, (encoder.render settings m).run before = .error e after →
        after.log = before.log ++ (LogRecord.registrations m.discovered.eraseDups ++
          [.resolved m.discovered.eraseDups.length m.imported.length m.defined.length settings.revision]) ∧
        Log.lines after.log = Log.lines before.log ++
          numberingLines m.discovered.eraseDups m.imported.length m.defined.length settings.revision) := by
  constructor
  · intro bytes after h
    obtain ⟨n, t, state, frames, hn, hmade, hframes, rfl, hlog⟩ := ExprEncoder.log_of_render h
    have htypes : (t.binary settings.revision).section? .types readTypes = some (some n.signatures) :=
      hmade.section?_eq settings.revision (.some (Section.says_types hmade.types))
    rw [hn.signatures, Module.signatureUses_eq] at htypes
    refine ⟨t.binary settings.revision, _, SectionKind.all.filterMap t.get, Binary.ofBytes?_header_append hframes, htypes, rfl, rfl,
      hmade.map_kind_filterMap hn _, ?_, ?_, length_header_append hframes⟩
    · rw [hlog, Module.numberingRecords, List.append_assoc]
      rfl
    · rw [hlog, Module.numberingRecords, Log.lines_append, Log.lines_append, Log.lines_numbering, Log.lines_writing]
  · intro hlimits e after h
    have hlog := ExprEncoder.log_of_render_error hlimits h
    refine ⟨hlog, ?_⟩
    rw [hlog, Module.numberingRecords, Log.lines_append, Log.lines_numbering]

/-- A module with a section of every kind, and one that is rendered up to its table. -/
theorem render_log_sample :
    (∃ bytes after, (standardEncoder.render ⟨.v12, true⟩ Module.sample).run ⟨(), []⟩ = .ok bytes after ∧
      after.log.length = 3 + 1 + 11 + 1 ∧ after.log.getLast? = some (.rendered bytes.length)) ∧
      ∃ e after, (standardEncoder.render ⟨.v11, true⟩ Module.astray).run ⟨(), []⟩ = .error e after ∧
        Log.lines after.log =
          [(.trace, "registered signature #0: (i32)"), (.trace, "registered signature #1: (i32, i32) -> i32"),
            (.trace, "registered signature #2: ()"),
            (.debug, "resolved 3 signatures, 1 imports, 2 defined functions for version 0xb")] := by
  constructor
  · obtain ⟨bytes, hbytes⟩ := Module.exists_render_sample .v12
    obtain ⟨after, hrun⟩ := Module.render_eq_ok.1 hbytes
    obtain ⟨b, types, sections, -, -, htypes, -, hkinds, hlog, -⟩ := (render_log _ _ _ _).1 bytes after hrun
    have hcount : types.length = 3 := by
      rw [htypes]
      decide +kernel
    have hsections : sections.length = 11 := by
      rw [← List.length_map Section.kind, hkinds]
      decide
    refine ⟨bytes, after, hrun, ?_, ?_⟩
    · rw [hlog]
      simp [LogRecord.registrations, hcount, hsections]
    · rw [hlog]
      simp [List.getLast?_cons]
  · have hlimits : standardEncoder.WithinLimits ⟨.v11, true⟩ Module.astray () := by decide +kernel
    cases hrun : (standardEncoder.render ⟨.v11, true⟩ Module.astray).run ⟨(), []⟩ with
    | ok bytes after =>
      have hok : (Module.astray.render ⟨.v11, true⟩).isOk = false := by decide +kernel
      rw [Module.render_eq_ok.2 ⟨after, hrun⟩] at hok
      nomatch hok
    | error e after =>
      refine ⟨e, after, rfl, ?_⟩
      obtain ⟨-, hlines⟩ := (render_log _ _ _ ⟨(), []⟩).2 hlimits e after hrun
      rw [hlines]
      decide +kernel

end WasmBinary
