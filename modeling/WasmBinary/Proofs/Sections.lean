import WasmBinary.Binary.Reader
import WasmBinary.Proofs.Rendering

/-!
# What the sections of a module say

Each section, read back from its payload, lists what it was written for, in order: signatures, imported functions, the signatures of
the defined functions, table entries, exported functions, bodies, segments, names. Functions and signatures are given by the numbers
that the tables of the rendering give them. `Section.Says kind r s a` says that the section `s` is of a kind and that the reader `r`
takes all of its payload and gives `a`.
-/

namespace WasmBinary

open ByteReader

/-- A number below 128 is written as one byte. -/
theorem readBy_expect_leb {v : UInt32} (h : v.toNat < 128) :
    ReadBy (WriteM.leb v) (expect v.toNat.toUInt8) () := by
  intro bytes hbytes
  rw [WriteM.toBytes_leb, Leb128.unsigned, if_pos h] at hbytes
  cases hbytes
  exact reads_expect _

/-! ## Signatures and runs of locals -/

instance Signature.appends_write (s : Signature) : s.write.Appends := by
  obtain ⟨result, params⟩ := s
  cases result <;> exact WriteM.appends_bind

/-- A function type is read back. -/
theorem Signature.readBy_write (s : Signature) : ReadBy s.write Signature.read s := by
  obtain ⟨result, params⟩ := s
  have hparams : ReadBy (WriteM.counted WriteM.type params) (counted type) params := by
    have h := readBy_counted readBy_type params
    rwa [List.map_id'] at h
  cases result with
  | none =>
    refine (readBy_expect functionForm).seq (hparams.seq ?_)
    intro bytes h
    exact (readBy_byte 0 bytes h).bind_nil (reads_pure _)
  | some t =>
    refine (readBy_expect functionForm).seq (hparams.seq ((readBy_byte 1).seq ?_))
    intro bytes h
    exact Reads.guard_bind rfl ((readBy_type t bytes h).map fun t => Signature.mk (some t) params)

namespace LocalRun

/-- A run as a binary holds it, with its length in 32 bits. -/
def stored (run : LocalRun) : LocalRun :=
  { run with count := run.count % 0x100000000 }

instance appends_write (run : LocalRun) : run.write.Appends :=
  WriteM.appends_bind

/-- A run of locals is read back with its length in 32 bits. -/
theorem readBy_write (run : LocalRun) : ReadBy run.write LocalRun.read run.stored := by
  have hcount : run.count.toUInt32.toNat = run.count % 0x100000000 := UInt32.toNat_ofNat'
  have hrun : run.stored = ⟨run.count.toUInt32.toNat, run.type⟩ := by rw [hcount, stored]
  rw [hrun]
  exact (readBy_leb run.count.toUInt32).seq ((readBy_type run.type).map fun t => LocalRun.mk run.count.toUInt32.toNat t)

end LocalRun

/-- The entry gives an imported function: its names at its origin and the number of its signature. -/
def Numbering.ImportsAs (n : Numbering) (p : Function × ImportSource) (e : ImportEntry) : Prop :=
  e.moduleName = p.2.moduleName.getD "" ∧ e.name = p.2.name ∧ n.signatureNumber p.1 = .ok e.signature

/-- The entry gives an exported function: its export name and its number. -/
def Numbering.ExportsAs (n : Numbering) (p : String × String) (e : ExportEntry) : Prop :=
  e.name = p.2 ∧ n.functionNumber p.1 = .ok e.function

/-- A function's entry in the code section, made by an encoder: the length of its body, then the body. -/
def ExprEncoder.bodyEntry {σ : Type} (encoder : ExprEncoder σ) (n : Numbering) (f : Function) :
    EStateM EncodeError σ (List UInt8) := do
  let body ← encoder.body n f
  let length ← (WriteM.len body.length).toBytes
  return length ++ body

/-! ## Sections made by a writer -/

namespace Section

variable {α β : Type}

/-- The section is of a kind, and its payload says `a`. -/
def Says (kind : SectionKind) (r : ByteReader α) (s : Section) (a : α) : Prop :=
  s.kind = kind ∧ r.whole s.payload = some a

theorem ofWriter_eq_ok {kind : SectionKind} {w : WriteM Unit} {s : Section} :
    ofWriter kind w = .ok s ↔ ∃ bytes, w.toBytes = .ok bytes ∧ s = ⟨kind, bytes⟩ := by
  unfold ofWriter
  rw [EncodeError.bind_eq_ok]
  constructor
  · rintro ⟨bytes, hbytes, h⟩
    exact ⟨bytes, hbytes, (Except.ok.inj h).symm⟩
  · rintro ⟨bytes, hbytes, rfl⟩
    exact ⟨bytes, hbytes, rfl⟩

/-- What is written for a section is what the section says. -/
theorem says_of_readBy {kind : SectionKind} {w : WriteM Unit} {r : ByteReader α} {a : α} {s : Section} (hw : ReadBy w r a)
    (h : ofWriter kind w = .ok s) : s.Says kind r a := by
  obtain ⟨bytes, hbytes, rfl⟩ := ofWriter_eq_ok.1 h
  exact ⟨rfl, (hw bytes hbytes).whole⟩

/-- A section that is left out when there is nothing to say. -/
theorem ofWriter_unless_eq_ok {kind : SectionKind} {w : WriteM Unit} {c : Bool} {o : Option Section}
    (h : (if c then return none else some <$> ofWriter kind w : Except EncodeError (Option Section)) = .ok o) :
    (c = true ∧ o = none) ∨ (c = false ∧ ∃ s, ofWriter kind w = .ok s ∧ o = some s) := by
  cases c with
  | true => exact Or.inl ⟨rfl, (Except.ok.inj h).symm⟩
  | false =>
    obtain ⟨s, hs, ho⟩ := EncodeError.map_eq_ok.1 h
    exact Or.inr ⟨rfl, s, hs, ho.symm⟩

theorem kind_of_ofWriter {kind : SectionKind} {w : WriteM Unit} {s : Section} (h : ofWriter kind w = .ok s) : s.kind = kind := by
  obtain ⟨bytes, -, rfl⟩ := ofWriter_eq_ok.1 h
  rfl

theorem kind_of_ofWriter_unless {kind : SectionKind} {w : WriteM Unit} {c : Bool} {o : Option Section}
    (h : (if c then return none else some <$> ofWriter kind w : Except EncodeError (Option Section)) = .ok o) :
    ∀ s ∈ o, s.kind = kind := by
  intro s hs
  rcases ofWriter_unless_eq_ok h with ⟨-, rfl⟩ | ⟨-, s', hs', rfl⟩
  · nomatch hs
  · obtain rfl := Option.some.inj hs
    exact kind_of_ofWriter hs'

theorem kind_of_rel {kind : SectionKind} {r : ByteReader α} {o : Option Section} {v : Option α}
    (h : Option.Rel (Says kind r) o v) : ∀ s ∈ o, s.kind = kind := by
  intro s hs
  cases h with
  | none => nomatch hs
  | some hread =>
    obtain rfl := Option.some.inj hs
    exact hread.1

/-- What is written for each item of a list is what the section says of it. -/
theorem says_counted {kind : SectionKind} {item : α → WriteM Unit} [∀ a, (item a).Appends] {r : ByteReader β}
    {R : α → β → Prop} {items : List α} {s : Section} (h : ofWriter kind (WriteM.counted item items) = .ok s)
    (hread : ∀ a part, (item a).toBytes = .ok part → ∃ b, R a b ∧ Reads r part b) :
    ∃ values, List.Forall₂ R items values ∧ s.Says kind (counted r) values := by
  obtain ⟨bytes, hbytes, rfl⟩ := ofWriter_eq_ok.1 h
  obtain ⟨values, hR, hr⟩ := reads_counted hbytes fun a _ => hread a
  exact ⟨values, hR, rfl, hr.whole⟩

/-- An item that is written with a number that is looked up first is written only if the number is found. -/
theorem toBytes_lift_bind_eq_ok {x : Except EncodeError α} {w : α → WriteM Unit} {bytes : List UInt8} :
    (liftM x >>= w : WriteM Unit).toBytes = .ok bytes ↔ ∃ a, x = .ok a ∧ (w a).toBytes = .ok bytes := by
  rw [WriteM.toBytes_lift_bind, EncodeError.bind_eq_ok]

/-! ## The sections one by one -/

variable {m : Module} {n : Numbering} {s : Section} {o : Option Section}

/-- The type section lists the signatures in use. -/
theorem says_types (h : Section.types n = .ok s) : s.Says .types readTypes n.signatures := by
  refine says_of_readBy ?_ h
  have hread := readBy_counted Signature.readBy_write n.signatures
  rwa [List.map_id'] at hread

instance appends_writeImport (n : Numbering) (f : Function) (source : ImportSource) : (writeImport n f source).Appends := by
  unfold writeImport
  cases n.revision <;> exact WriteM.appends_bind

/-- An imported function is read back with the names that it has at its origin and the number of its signature. -/
theorem reads_writeImport {f : Function} {source : ImportSource} {part : List UInt8}
    (h : (writeImport n f source).toBytes = .ok part) :
    ∃ e, n.ImportsAs (f, source) e ∧ Reads (ImportEntry.read n.revision) part e := by
  unfold writeImport at h
  obtain ⟨signature, hsignature, h⟩ := toBytes_lift_bind_eq_ok.1 h
  refine ⟨⟨source.moduleName.getD "", source.name, signature⟩, ⟨rfl, rfl, hsignature⟩, ?_⟩
  cases hr : n.revision with
  | v11 =>
    rw [hr] at h
    refine ReadBy.seq (readBy_leb signature) ((readBy_ascii _).seq ?_) part h
    exact (readBy_ascii source.name).map fun name => ImportEntry.mk _ name signature
  | v12 =>
    rw [hr] at h
    refine ReadBy.seq (readBy_ascii _) ((readBy_ascii source.name).seq ((readBy_expect functionKind).seq ?_)) part h
    exact (readBy_leb signature).map fun i => ImportEntry.mk _ source.name i

/-- The import section lists the imported functions; it is left out if there are none. -/
theorem says_imports (h : Section.imports n = .ok o) :
    ∃ v : Option (List ImportEntry), Option.Rel (Says .imports (readImports n.revision)) o v ∧
      List.Forall₂ n.ImportsAs n.imported (v.getD []) := by
  rcases ofWriter_unless_eq_ok h with ⟨hempty, rfl⟩ | ⟨-, s, hs, rfl⟩
  · rw [List.isEmpty_iff.1 hempty]
    exact ⟨none, .none, .nil⟩
  · have hread : ∀ p part, (writeImport n p.1 p.2).toBytes = .ok part →
        ∃ e, n.ImportsAs p e ∧ Reads (ImportEntry.read n.revision) part e := fun p part => reads_writeImport
    obtain ⟨entries, hentries, hsection⟩ := says_counted hs hread
    exact ⟨some entries, .some hsection, hentries⟩

/-- Each of a list of numbers is looked up and written. -/
theorem says_numbers {kind : SectionKind} {number : α → Except EncodeError UInt32} {items : List α}
    (h : ofWriter kind (WriteM.counted (fun a => do WriteM.leb (← number a)) items) = .ok s) :
    ∃ values, List.Forall₂ (fun a i => number a = .ok i) items values ∧ s.Says kind readIndexes values := by
  refine says_counted h ?_
  intro a part hpart
  obtain ⟨i, hi, hpart⟩ := toBytes_lift_bind_eq_ok.1 hpart
  exact ⟨i, hi, readBy_leb i part hpart⟩

/-- The function section lists the numbers of the signatures of the defined functions. -/
theorem says_functions (h : Section.functions n = .ok s) :
    ∃ ts, List.Forall₂ (fun f t => n.signatureNumber f = .ok t) n.defined ts ∧ s.Says .functions readIndexes ts :=
  says_numbers h

/-- Under revision 0xB the table section lists the numbers of the functions in the table. -/
theorem says_table_entries (hr : n.revision = .v11) (h : Section.table m n = .ok o) :
    ∃ v : Option (List UInt32), Option.Rel (Says .table readIndexes) o v ∧
      List.Forall₂ (fun name i => n.functionNumber name = .ok i) m.table (v.getD []) := by
  rcases ofWriter_unless_eq_ok h with ⟨hempty, rfl⟩ | ⟨-, s, hs, rfl⟩
  · rw [List.isEmpty_iff.1 hempty]
    exact ⟨none, .none, .nil⟩
  · rw [hr] at hs
    obtain ⟨values, hvalues, hsection⟩ := says_numbers hs
    exact ⟨some values, .some hsection, hvalues⟩

/-- Under revision 0xC the table section gives the size of the table; it is left out if the table is empty. -/
theorem says_table_size (hr : n.revision = .v12) (h : Section.table m n = .ok o) :
    ∃ v : Option UInt32, Option.Rel (Says .table readTableSize) o v ∧
      v.map UInt32.toNat = if m.table.isEmpty then none else some m.table.length := by
  rcases ofWriter_unless_eq_ok h with ⟨hempty, rfl⟩ | ⟨hempty, s, hs, rfl⟩
  · rw [if_pos hempty]
    exact ⟨none, .none, rfl⟩
  · rw [if_neg (by simpa using hempty)]
    rw [hr] at hs
    obtain ⟨bytes, hbytes, rfl⟩ := ofWriter_eq_ok.1 hs
    obtain ⟨b₁, _, hb₁, hw₂, rfl⟩ := WriteM.toBytes_seq_eq_ok.1 hbytes
    obtain ⟨b₂, _, hb₂, hw₃, rfl⟩ := WriteM.toBytes_seq_eq_ok.1 hw₂
    obtain ⟨b₃, part, hb₃, hpart, rfl⟩ := WriteM.toBytes_seq_eq_ok.1 hw₃
    obtain ⟨hlt, -⟩ := WriteM.toBytes_len_eq_ok.1 hpart
    have hall : Reads readTableSize (b₁ ++ (b₂ ++ (b₃ ++ part))) m.table.length.toUInt32 :=
      (readBy_expect _ b₁ hb₁).bind ((readBy_expect _ b₂ hb₂).bind ((readBy_expect _ b₃ hb₃).bind (readBy_len _ part hpart)))
    exact ⟨some m.table.length.toUInt32, .some ⟨rfl, hall.whole⟩, congrArg some (UInt32.toNat_ofNat_of_lt' hlt)⟩

/-- The memory section gives the size of the memory as the smallest and the largest one. -/
theorem says_memory {r : Revision} (h : Section.memory m r = .ok s) :
    s.Says .memory (readMemory r) (m.memorySize, m.memorySize) := by
  refine says_of_readBy ?_ h
  cases r with
  | v11 =>
    refine (readBy_leb m.memorySize).seq ((readBy_leb m.memorySize).seq ?_)
    exact (readBy_expect 1).map fun _ => (m.memorySize, m.memorySize)
  | v12 =>
    refine (readBy_expect 1).seq ((readBy_expect boundedLimits).seq ((readBy_leb m.memorySize).seq ?_))
    exact (readBy_leb m.memorySize).map fun size => (m.memorySize, size)

instance appends_writeExport (n : Numbering) (function exportName : String) : (writeExport n function exportName).Appends := by
  unfold writeExport
  cases n.revision <;> exact WriteM.appends_bind

/-- An exported function is read back with its export name and its number. -/
theorem reads_writeExport {function exportName : String} {part : List UInt8}
    (h : (writeExport n function exportName).toBytes = .ok part) :
    ∃ e, n.ExportsAs (function, exportName) e ∧ Reads (ExportEntry.read n.revision) part e := by
  unfold writeExport at h
  obtain ⟨index, hindex, h⟩ := toBytes_lift_bind_eq_ok.1 h
  refine ⟨⟨exportName, index⟩, ⟨rfl, hindex⟩, ?_⟩
  cases hr : n.revision with
  | v11 =>
    rw [hr] at h
    exact ReadBy.seq (readBy_leb index) ((readBy_ascii exportName).map fun name => ExportEntry.mk name index) part h
  | v12 =>
    rw [hr] at h
    refine ReadBy.seq (readBy_ascii exportName) ((readBy_expect functionKind).seq ?_) part h
    exact (readBy_leb index).map fun i => ExportEntry.mk exportName i

/-- The export section lists the exported functions; it is left out if there are none. -/
theorem says_exports (h : Section.exports m n = .ok o) :
    ∃ v : Option (List ExportEntry), Option.Rel (Says .exports (readExports n.revision)) o v ∧
      List.Forall₂ n.ExportsAs m.exported (v.getD []) := by
  rcases ofWriter_unless_eq_ok h with ⟨hempty, rfl⟩ | ⟨-, s, hs, rfl⟩
  · rw [List.isEmpty_iff.1 hempty]
    exact ⟨none, .none, .nil⟩
  · have hread : ∀ p part, (writeExport n p.1 p.2).toBytes = .ok part →
        ∃ e, n.ExportsAs p e ∧ Reads (ExportEntry.read n.revision) part e := fun p part => reads_writeExport
    obtain ⟨entries, hentries, hsection⟩ := says_counted hs hread
    exact ⟨some entries, .some hsection, hentries⟩

/-- The start section gives the number of the function to start with, if the module has one. -/
theorem says_start (h : Section.start m n = .ok o) :
    ∃ v : Option UInt32, Option.Rel (Says .start leb) o v ∧
      Option.Rel (fun name i => n.functionNumber name = .ok i) m.start v := by
  unfold Section.start at h
  cases hstart : m.start with
  | none =>
    rw [hstart] at h
    cases h
    exact ⟨none, .none, .none⟩
  | some name =>
    rw [hstart] at h
    obtain ⟨s, hs, rfl⟩ := EncodeError.map_eq_ok.1 h
    obtain ⟨bytes, hbytes, rfl⟩ := ofWriter_eq_ok.1 hs
    obtain ⟨i, hi, hbytes⟩ := toBytes_lift_bind_eq_ok.1 hbytes
    exact ⟨some i, .some ⟨rfl, (readBy_leb i bytes hbytes).whole⟩, .some hi⟩

instance appends_writeTableEntries (m : Module) (n : Numbering) : (writeTableEntries m n).Appends :=
  WriteM.appends_counted _

/-- The entries of the table are read back as their numbers. -/
theorem reads_writeTableEntries {part : List UInt8} (h : (writeTableEntries m n).toBytes = .ok part) :
    ∃ values, List.Forall₂ (fun name i => n.functionNumber name = .ok i) m.table values ∧ Reads readIndexes part values := by
  refine reads_counted h ?_
  intro name _ part hpart
  obtain ⟨i, hi, hpart⟩ := toBytes_lift_bind_eq_ok.1 hpart
  exact ⟨i, hi, readBy_leb i part hpart⟩

/-- Under revision 0xC the element section lists the numbers of the functions in the table. -/
theorem says_elements (hr : n.revision = .v12) (h : Section.elements m n = .ok o) :
    ∃ v : Option (List UInt32), Option.Rel (Says .elements readElements) o v ∧
      List.Forall₂ (fun name i => n.functionNumber name = .ok i) m.table (v.getD []) := by
  rcases ofWriter_unless_eq_ok h with ⟨hempty, rfl⟩ | ⟨-, s, hs, rfl⟩
  · have htable : m.table = [] := by simpa [hr, Revision.combined] using hempty
    rw [htable]
    exact ⟨none, .none, .nil⟩
  · obtain ⟨bytes, hbytes, rfl⟩ := ofWriter_eq_ok.1 hs
    obtain ⟨b₁, _, hb₁, hw₂, rfl⟩ := WriteM.toBytes_seq_eq_ok.1 hbytes
    obtain ⟨b₂, _, hb₂, hw₃, rfl⟩ := WriteM.toBytes_seq_eq_ok.1 hw₂
    obtain ⟨b₃, _, hb₃, hw₄, rfl⟩ := WriteM.toBytes_seq_eq_ok.1 hw₃
    obtain ⟨b₄, _, hb₄, hw₅, rfl⟩ := WriteM.toBytes_seq_eq_ok.1 hw₄
    obtain ⟨b₅, part, hb₅, hpart, rfl⟩ := WriteM.toBytes_seq_eq_ok.1 hw₅
    obtain ⟨values, hvalues, hread⟩ := reads_writeTableEntries hpart
    have hone : ReadBy (WriteM.leb 1) (expect 1) () := readBy_expect_leb (by decide)
    have hzero : ReadBy (WriteM.leb 0) (expect 0) () := readBy_expect_leb (by decide)
    have hall : Reads readElements (b₁ ++ (b₂ ++ (b₃ ++ (b₄ ++ (b₅ ++ part))))) values :=
      (hone b₁ hb₁).bind ((hzero b₂ hb₂).bind ((readBy_expect _ b₃ hb₃).bind ((hzero b₄ hb₄).bind
        ((readBy_expect _ b₅ hb₅).bind hread))))
    exact ⟨some values, .some ⟨rfl, hall.whole⟩, hvalues⟩

/-- The entries of a code section are read back as the bodies that the encoder made. -/
theorem reads_bodyEntries {σ : Type} {encoder : ExprEncoder σ} {fs : List Function} {parts : List (List UInt8)} {before after : σ}
    (h : (fs.mapM (encoder.bodyEntry n)).run before = .ok parts after) :
    ∃ bodies, (fs.mapM (encoder.body n)).run before = .ok bodies after ∧ List.Forall₂ (Reads block) parts bodies := by
  induction fs generalizing parts before with
  | nil =>
    cases h
    exact ⟨[], rfl, .nil⟩
  | cons f fs ih =>
    obtain ⟨part, rest, s₁, hpart, hrest, rfl⟩ := EncodeError.run_mapM_cons_eq_ok.1 h
    obtain ⟨body, s₂, hbody, hpart⟩ := EncodeError.run_bind_eq_ok.1 hpart
    obtain ⟨length, hlength, hpart⟩ := EncodeError.run_lift_bind_eq_ok.1 hpart
    cases hpart
    obtain ⟨hlt, rfl⟩ := WriteM.toBytes_len_eq_ok.1 hlength
    obtain ⟨bodies, hbodies, hread⟩ := ih hrest
    exact ⟨body :: bodies, EncodeError.run_mapM_cons_eq_ok.2 ⟨body, bodies, _, hbody, hbodies, rfl⟩, .cons (reads_block hlt) hread⟩

/-- The code section lists the bodies that the encoder makes of the defined functions. -/
theorem says_code_of_run {σ : Type} {encoder : ExprEncoder σ} {before after : σ}
    (h : (Section.code n encoder).run before = .ok s after) :
    ∃ bodies, (n.defined.mapM (encoder.body n)).run before = .ok bodies after ∧ s.Says .code readBodies bodies := by
  unfold Section.code at h
  obtain ⟨count, hcount, h⟩ := EncodeError.run_lift_bind_eq_ok.1 h
  obtain ⟨parts, s₁, hparts, h⟩ := EncodeError.run_bind_eq_ok.1 h
  cases h
  obtain ⟨hlt, rfl⟩ := WriteM.toBytes_len_eq_ok.1 hcount
  obtain ⟨bodies, hbodies, hread⟩ := reads_bodyEntries hparts
  refine ⟨bodies, hbodies, rfl, Reads.whole ((reads_length hlt).bind ?_)⟩
  have hlen : n.defined.length.toUInt32.toNat = parts.length := by
    rw [UInt32.toNat_ofNat_of_lt' hlt]
    exact (EncodeError.length_of_run_mapM hparts).symm
  rw [hlen]
  exact reads_repeated hread

/-- The code section lists the bodies of the defined functions. -/
theorem says_code (h : n.codeSection = .ok s) :
    ∃ bodies, List.Forall₂ (fun f body => n.bodyBytes f = .ok body) n.defined bodies ∧ s.Says .code readBodies bodies := by
  have hrun : (Section.code n standardEncoder).run () = .ok s () := by
    rw [code_standardEncoder]
    exact EncodeError.run_lift_eq_ok.2 ⟨h, rfl⟩
  obtain ⟨bodies, hbodies, hsays⟩ := says_code_of_run hrun
  rw [funext (standardEncoder_body n), ← liftM_mapM] at hbodies
  obtain ⟨hbodies, -⟩ := EncodeError.run_lift_eq_ok.1 hbodies
  exact ⟨bodies, EncodeError.mapM_eq_ok.1 hbodies, hsays⟩

instance appends_writeSegment (chunk : Nat) (r : Revision) (s : Segment) : (writeSegment chunk r s).Appends := by
  cases r <;> exact WriteM.appends_bind

/-- A segment is read back, whatever the size of the pieces in which it was written. -/
theorem readBy_writeSegment (chunk : Nat) (r : Revision) (s : Segment) :
    ReadBy (writeSegment chunk r s) (Segment.read r) s := by
  have hblock : ReadBy (WriteM.len s.data.length >>= fun _ => WriteM.chunked chunk s.data) block s.data :=
    readBy_block (WriteM.toBytes_chunked _ _)
  cases r with
  | v11 => exact (readBy_leb s.offset).seq (hblock.map fun data => Segment.mk s.offset data)
  | v12 =>
    refine (readBy_expect 0).seq ((readBy_expect (Instr.i32Const 0).opcode).seq ?_)
    refine (readBy_leb s.offset).seq ((readBy_expect endByte).seq ?_)
    exact hblock.map fun data => Segment.mk s.offset data

/-- The data section lists the segments; it is left out if there are none. -/
theorem says_data {r : Revision} (h : Section.data m r = .ok o) :
    ∃ v : Option (List Segment), Option.Rel (Says .data (readSegments r)) o v ∧ v.getD [] = m.segments := by
  rcases ofWriter_unless_eq_ok h with ⟨hempty, rfl⟩ | ⟨-, s, hs, rfl⟩
  · rw [List.isEmpty_iff.1 hempty]
    exact ⟨none, .none, rfl⟩
  · have hread := readBy_counted (readBy_writeSegment dataChunk r) m.segments
    rw [List.map_id'] at hread
    exact ⟨some m.segments, .some (says_of_readBy hread hs), rfl⟩

instance appends_writeName (f : Function) : (writeName f).Appends :=
  WriteM.appends_bind

/-- The name section lists the names of the defined functions; it is left out where names are not asked for. -/
theorem says_names {settings : Settings} (h : n.nameSection settings = .ok o) :
    Option.Rel (Says .names readNames) o (if settings.nameSection then some (n.defined.map Function.name) else none) := by
  unfold Numbering.nameSection at h
  cases hnames : settings.nameSection with
  | false =>
    rw [hnames] at h
    cases h
    exact .none
  | true =>
    rw [hnames] at h
    obtain ⟨s, hs, rfl⟩ := EncodeError.map_eq_ok.1 h
    have hzero : ReadBy (WriteM.leb 0) (expect 0) () := readBy_expect_leb (by decide)
    refine .some (says_of_readBy (readBy_counted ?_ n.defined) hs)
    exact fun f => (readBy_ascii f.name).seq (hzero.map fun _ => f.name)

end Section

end WasmBinary
