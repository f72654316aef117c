import Mathlib.Tactic.MkIffOfInductiveProp
import WasmBinary.Proofs.Contents
import WasmBinary.Proofs.Faults

/-!
# Why rendering fails

As long as no count or length is too large for 32 bits (`Module.WithinLimits`), rendering fails with the first fault of the module and
succeeds if there is none. Section by section, what fails is what the scan of the module looks for; everything else can be written. In
particular, every signature that is needed is in the catalog.
-/

namespace WasmBinary

/-! ## Limits -/

namespace Frame

/-- The number of bytes that a frame counts. -/
def contentLength : Frame → Nat
  | named _ payload | numbered _ payload => payload.length
  | custom name payload => payload.length + ((Leb128.unsigned name.length).length + name.length)

end Frame

namespace Module

/-- The lengths in bytes that a binary gives: those of the bodies, and those of the framed sections, as far as they can be made. -/
def encodedLengths (m : Module) (settings : Settings) : List Nat :=
  match (Numbering.resolve m settings.revision).run [] with
  | .error _ _ => []
  | .ok n _ =>
    (m.defined.filterMap fun f => (n.bodyBytes f).toOption.map List.length) ++
      match m.plainSections settings n with
      | .error _ => []
      | .ok sections => sections.map fun s => (s.frame settings.revision).contentLength

/-- Every count and length that a binary gives fits in 32 bits, and so does every number. -/
@[mk_iff]
structure WithinLimits (m : Module) (settings : Settings) : Prop where
  /-- The functions can be numbered and counted. -/
  functions : m.functions.toList.length < 0x100000000
  /-- The distinct signatures can be numbered and counted. -/
  signatures : m.signatureUses.eraseDups.length < 0x100000000
  /-- The parameters of a signature can be counted. -/
  params : ∀ s ∈ m.signatureUses, s.params.length < 0x100000000
  /-- The names of imported functions at their origin are not too long. -/
  importNames : ∀ p ∈ m.imported, (p.2.moduleName.getD "").length < 0x100000000 ∧ p.2.name.length < 0x100000000
  /-- The entries of the table can be counted. -/
  table : m.table.length < 0x100000000
  /-- Export names are not too long. -/
  exportNames : ∀ p ∈ m.exported, p.2.length < 0x100000000
  /-- The runs of locals can be counted. -/
  runs : ∀ f ∈ m.defined, (LocalRun.ofTypes f.vars.toList).length < 0x100000000
  /-- The segments can be counted. -/
  segments : m.segments.length < 0x100000000
  /-- The bytes of a segment can be counted. -/
  data : ∀ s ∈ m.segments, s.data.length < 0x100000000
  /-- The names of functions are not too long, where they are written. -/
  names : settings.nameSection = true → ∀ f ∈ m.defined, f.name.length < 0x100000000
  /-- Bodies and sections are not too long. -/
  encoded : ∀ length ∈ m.encodedLengths settings, length < 0x100000000

instance (m : Module) (settings : Settings) : Decidable (m.WithinLimits settings) :=
  decidable_of_iff' _ (withinLimits_iff m settings)

namespace WithinLimits

variable {m : Module} {settings : Settings} (h : m.WithinLimits settings)
include h

theorem length_imported : m.imported.length < 0x100000000 :=
  Nat.lt_of_le_of_lt (List.length_filterMap_le _ _) h.functions

theorem length_defined : m.defined.length < 0x100000000 :=
  Nat.lt_of_le_of_lt (List.length_filter_le _ _) h.functions

theorem length_exported : m.exported.length < 0x100000000 :=
  Nat.lt_of_le_of_lt (List.length_filterMap_le _ _) h.functions

theorem length_numbered (r : Revision) : (m.numbered r).length < 0x100000000 :=
  Nat.lt_of_le_of_lt (m.length_numbered_le r) h.functions

end WithinLimits

end Module

/-! ## Names and signatures -/

theorem Module.mem_numbered_iff {m : Module} {r : Revision} {f : Function} :
    f ∈ m.numbered r ↔ f ∈ m.functions.toList ∧ (r.combined || !f.isImport) = true := by
  cases r with
  | v11 => exact List.mem_filter
  | v12 =>
    show f ∈ m.importedFunctions ++ m.defined ↔ _
    rw [m.importedFunctions_append_defined_perm.mem_iff]
    exact ⟨fun h => ⟨h, rfl⟩, And.left⟩

/-- The names that stand for a function with a number are those in the list of numbers. -/
theorem Module.resolves_iff {m : Module} {r : Revision} {name : String} :
    m.resolves r name = true ↔ name ∈ (m.numbered r).map Function.name := by
  unfold resolves
  rw [List.mem_map]
  constructor
  · intro h
    split at h
    · rename_i f hf
      obtain ⟨hmem, hname⟩ := function?_eq_some.1 hf
      exact ⟨f, mem_numbered_iff.2 ⟨hmem, h⟩, hname⟩
    · nomatch h
  · rintro ⟨f, hf, hname⟩
    obtain ⟨hmem, hr⟩ := mem_numbered_iff.1 hf
    rw [function?_eq_some.2 ⟨hmem, hname⟩]
    exact hr

/-- The names of imported functions are those that stand for one. -/
theorem Module.mem_importedNames_iff {m : Module} {name : String} :
    name ∈ m.importedFunctions.map Function.name ↔ ∃ f, m.function? name = some f ∧ f.isImport = true := by
  rw [m.importedFunctions_eq_filter, List.mem_map]
  constructor
  · rintro ⟨f, hf, hname⟩
    obtain ⟨hmem, himport⟩ := List.mem_filter.1 hf
    exact ⟨f, function?_eq_some.2 ⟨hmem, hname⟩, himport⟩
  · rintro ⟨f, hf, himport⟩
    obtain ⟨hmem, hname⟩ := function?_eq_some.1 hf
    exact ⟨f, List.mem_filter.2 ⟨hmem, himport⟩, hname⟩

/-- A table has an entry exactly for the names that it lists. -/
theorem NameTable.Lists.isSome_getElem? {t : NameTable} {names : List String} (h : Lists t names)
    (hlen : names.length < 0x100000000) (name : String) : t[name]?.isSome = true ↔ name ∈ names := by
  rw [Option.isSome_iff_exists]
  constructor
  · rintro ⟨i, hi⟩
    exact List.mem_of_getElem? ((h.get name i).1 hi)
  · intro hname
    obtain ⟨k, hk, hget⟩ := List.getElem_of_mem hname
    have hn : k.toUInt32.toNat = k := UInt32.toNat_ofNat_of_lt' (show k < 0x100000000 by omega)
    refine ⟨k.toUInt32, (h.get name _).2 ?_⟩
    rw [hn, List.getElem?_eq_getElem hk, hget]

/-- A table fails exactly on the names that it does not list. -/
theorem NameTable.Lists.fault?_number {t : NameTable} {names : List String} (h : Lists t names) (hlen : names.length < 0x100000000)
    (name : String) : fault? (t.number name) = if name ∈ names then none else some (.unresolvedFunction name) := by
  have hiff := h.isSome_getElem? hlen name
  unfold NameTable.number
  split
  · rename_i i hi
    rw [hi] at hiff
    rw [if_pos (hiff.1 rfl), fault?_ok]
  · rename_i hnone
    rw [hnone] at hiff
    rw [if_neg fun hname => Bool.noConfusion (hiff.2 hname)]
    rfl

/-! ## Faults of sections -/

namespace Section

@[simp] theorem fault?_ofWriter (kind : SectionKind) (w : WriteM Unit) : fault? (ofWriter kind w) = w.fault := by
  unfold ofWriter WriteM.fault
  cases w.toBytes <;> rfl

theorem fault?_ofWriter_unless (kind : SectionKind) (w : WriteM Unit) (c : Bool) :
    fault? (if c then return none else some <$> ofWriter kind w : Except EncodeError (Option Section)) =
      if c then none else w.fault := by
  cases c with
  | true => rfl
  | false => exact (fault?_map _ _).trans (fault?_ofWriter kind w)

theorem fault_writeSignature {s : Signature} (h : s.params.length < 0x100000000) : s.write.fault = none := by
  obtain ⟨result, params⟩ := s
  have hparams : (WriteM.counted WriteM.type params).fault = none := by
    rw [WriteM.fault_counted h, List.findSome?_eq_none_iff]
    exact fun t _ => WriteM.fault_type t
  cases result <;> simp [Signature.write, hparams]

/-- The memory section has no fault. -/
theorem fault?_memory (m : Module) (r : Revision) : fault? (Section.memory m r) = none := by
  cases r <;> simp [Section.memory]

/-- Every signature that a module uses has a number, if its distinct signatures can be numbered. -/
theorem fault?_number_of_le {m : Module} {n : Numbering} (hn : n.signatures = m.signatureUses.eraseDups)
    (hlen : m.signatureUses.eraseDups.length ≤ 0x100000000) {s : Signature} (hs : s ∈ m.signatureUses) :
    fault? (n.references.signatures.number s) = none := by
  have hsignatures : n.references.signatures.signatures = m.signatureUses.eraseDups := hn
  rw [fault?_eq_none]
  refine Catalog.exists_number_of_mem ?_ ?_
  · rw [hsignatures]
    exact List.mem_eraseDups.2 hs
  · rw [hsignatures]
    exact hlen

/-- An imported function whose signature has a number fails as its texts do. -/
theorem fault_writeImport_of_number {n : Numbering} {p : Function × ImportSource} (h : fault? (n.signatureNumber p.1) = none) :
    (writeImport n p.1 p.2).fault = (WriteM.ascii (p.2.moduleName.getD "")).fault.or (WriteM.ascii p.2.name).fault := by
  refine (WriteM.fault_lift_bind h fun i _ => ?_).trans Option.none_or
  cases n.revision <;> simp

variable {m : Module} {settings : Settings} {n : Numbering} (hn : n.Describes m settings.revision) (hm : m.WithinLimits settings)
include hn hm

/-- The type section has no fault. -/
theorem fault?_types : fault? (Section.types n) = none := by
  unfold Section.types
  rw [fault?_ofWriter, hn.signatures, WriteM.fault_counted hm.signatures, List.findSome?_eq_none_iff]
  intro s hs
  exact fault_writeSignature (hm.params s (List.mem_eraseDups.1 hs))

/-- Every signature that the module uses has a number. -/
theorem fault?_number {s : Signature}
    (hs : s ∈ m.signatureUses) : fault? (n.references.signatures.number s) = none :=
  fault?_number_of_le hn.signatures (Nat.le_of_lt hm.signatures) hs

/-- Every function has a signature with a number. -/
theorem fault?_signatureNumber {f : Function}
    (hf : f ∈ m.functions.toList) : fault? (n.signatureNumber f) = none :=
  fault?_number hn hm (List.mem_flatMap.2 ⟨f, hf, List.mem_cons_self⟩)

/-- A name fails exactly if it stands for no function with a number. -/
theorem fault?_functionNumber (name : String) :
    fault? (n.functionNumber name) = m.nameFault settings.revision name := by
  have hlen : ((m.numbered settings.revision).map Function.name).length < 0x100000000 := by
    rw [List.length_map]
    exact hm.length_numbered _
  unfold Numbering.functionNumber Module.nameFault
  rw [hn.functionNumbers.fault?_number hlen]
  simp only [Module.resolves_iff]

theorem fault_writeImport {p : Function × ImportSource}
    (hp : p ∈ m.imported) :
    (writeImport n p.1 p.2).fault = (textFault (p.2.moduleName.getD "")).or (textFault p.2.name) := by
  have hmem := Module.mem_of_mem_imported hp
  obtain ⟨hmodule, hname⟩ := hm.importNames p hp
  rw [fault_writeImport_of_number (fault?_signatureNumber hn hm hmem), WriteM.fault_ascii hmodule, WriteM.fault_ascii hname]

/-- The import section fails on the first text that is not ASCII. -/
theorem fault?_imports :
    fault? (Section.imports n) = m.importFault := by
  unfold Section.imports Module.importFault
  rw [fault?_ofWriter_unless, hn.imported, WriteM.fault_counted hm.length_imported,
    findSome?_congr fun p hp => fault_writeImport hn hm hp]
  cases m.imported <;> rfl

/-- The function section has no fault. -/
theorem fault?_functions :
    fault? (Section.functions n) = none := by
  unfold Section.functions
  rw [fault?_ofWriter, hn.defined, WriteM.fault_counted hm.length_defined, List.findSome?_eq_none_iff]
  intro f hf
  exact WriteM.fault_lift_bind (fault?_signatureNumber hn hm (List.mem_filter.1 hf).1) fun i _ => WriteM.fault_leb i

/-- The entries of the table fail on the first name that stands for no function with a number. -/
theorem fault_writeTableEntries :
    (writeTableEntries m n).fault = m.tableFault settings.revision := by
  unfold writeTableEntries Module.tableFault
  rw [WriteM.fault_counted hm.table]
  refine findSome?_congr fun name _ => ?_
  exact (WriteM.fault_lift_bind (fault?_functionNumber hn hm name) fun i _ => WriteM.fault_leb i).trans Option.or_none

/-- The table section fails only where it holds the entries of the table. -/
theorem fault?_table :
    fault? (Section.table m n) = if settings.revision = .v11 then m.tableFault .v11 else none := by
  have hentries := fault_writeTableEntries hn hm
  have hr := hn.revision
  unfold Section.table
  rw [fault?_ofWriter_unless]
  cases hempty : m.table.isEmpty with
  | true => simp [Module.tableFault, List.isEmpty_iff.1 hempty]
  | false =>
    cases hrevision : settings.revision with
    | v11 =>
      rw [hrevision] at hr hentries
      rw [hr]
      exact hentries
    | v12 =>
      rw [hrevision] at hr
      simp [hr, WriteM.fault_len hm.table]

theorem fault_writeExport {p : String × String}
    (hp : p ∈ m.exported) : (writeExport n p.1 p.2).fault = (m.nameFault settings.revision p.1).or (textFault p.2) := by
  refine WriteM.fault_lift_bind (fault?_functionNumber hn hm p.1) fun i _ => ?_
  cases n.revision <;> simp [WriteM.fault_ascii (hm.exportNames p hp)]

/-- The export section fails on the first function that cannot be exported. -/
theorem fault?_exports :
    fault? (Section.exports m n) = m.exportFault settings.revision := by
  have hfault : fault? (Section.exports m n) =
      m.exported.findSome? fun p => (m.nameFault settings.revision p.1).or (textFault p.2) := by
    unfold Section.exports
    rw [fault?_ofWriter_unless, WriteM.fault_counted hm.length_exported, findSome?_congr fun p hp => fault_writeExport hn hm hp]
    cases m.exported <;> rfl
  rw [hfault, Module.exported, findSome?_filterMap]
  refine findSome?_congr fun f hf => ?_
  have hfunction : m.function? f.name = some f := Module.function?_eq_some.2 ⟨hf, rfl⟩
  cases f.exportName with
  | none => rfl
  | some exportName =>
    show (m.nameFault settings.revision f.name).or (textFault exportName) = if _ then _ else _
    unfold Module.nameFault Module.resolves
    rw [hfunction]
    cases settings.revision <;> cases himport : f.isImport <;> simp [Revision.combined, himport]

/-- The start section fails if its name stands for no function with a number. -/
theorem fault?_start :
    fault? (Section.start m n) = m.startFault settings.revision := by
  unfold Section.start Module.startFault
  cases m.start with
  | none => rfl
  | some name =>
    show fault? (some <$> ofWriter .start _) = m.nameFault settings.revision name
    rw [fault?_map, fault?_ofWriter]
    exact (WriteM.fault_lift_bind (fault?_functionNumber hn hm name) fun i _ => WriteM.fault_leb i).trans Option.or_none

/-- The element section fails only where there is one. -/
theorem fault?_elements :
    fault? (Section.elements m n) = if settings.revision = .v12 then m.tableFault .v12 else none := by
  have hentries := fault_writeTableEntries hn hm
  have hr := hn.revision
  unfold Section.elements
  rw [fault?_ofWriter_unless]
  cases hempty : m.table.isEmpty with
  | true => simp [Module.tableFault, List.isEmpty_iff.1 hempty]
  | false =>
    cases hrevision : settings.revision with
    | v11 =>
      rw [hrevision] at hr
      rw [hr]
      rfl
    | v12 =>
      rw [hrevision] at hr hentries
      simp [hr, Revision.combined, hentries]

end Section

/-! ## Faults of bodies -/

namespace Module

/-- The fault of an instruction that calls a function by a name that is not in the module. -/
def symbolFault (m : Module) : Symbolic → Option EncodeError
  | .call name => if (m.function? name).isSome then none else some (.unresolvedFunction name)
  | _ => none

theorem nodeFault_eq (m : Module) (e : Expr) : m.nodeFault e = e.callSymbol?.bind m.symbolFault := by
  cases e <;> rfl

/-- The faults of the code of a body are those of its nodes. -/
theorem findSome?_symbolFault (m : Module) (es : List Expr) :
    (Expr.flattenAll es).findSome? m.symbolFault = (es.flatMap Expr.postorder).findSome? m.nodeFault := by
  have hcalls : (Expr.flattenAll es).findSome? m.symbolFault =
      ((Expr.flattenAll es).filter Symbolic.isCall).findSome? m.symbolFault := by
    rw [← List.head?_filterMap, ← List.head?_filterMap, List.filterMap_filter]
    congr 1
    refine List.filterMap_congr fun s _ => ?_
    cases s <;> rfl
  rw [hcalls, Expr.filter_isCall_flattenAll, findSome?_filterMap, funext m.nodeFault_eq]

end Module

/-- The signature of an indirect call in the code of a body is a signature that the module uses. -/
theorem Module.mem_signatureUses_of_callIndirect {m : Module} {f : Function} (hf : f ∈ m.functions.toList) {s : Signature}
    (hs : Symbolic.callIndirect s ∈ Expr.flattenAll f.body) : s ∈ m.signatureUses := by
  have hcall : Symbolic.callIndirect s ∈ (Expr.flattenAll f.body).filter Symbolic.isCall := List.mem_filter.2 ⟨hs, rfl⟩
  rw [Expr.filter_isCall_flattenAll] at hcall
  obtain ⟨e, he, hsymbol⟩ := List.mem_filterMap.1 hcall
  obtain ⟨e', he', hnode⟩ := List.mem_flatMap.1 he
  have hsignature : e.indirectSignature? = some s := by
    cases e with
    | callIndirect s' selector args =>
      cases hsymbol
      rfl
    | call name args => nomatch hsymbol
    | _ => nomatch hsymbol
  refine List.mem_flatMap.2 ⟨f, hf, List.mem_cons_of_mem _ (List.mem_flatMap.2 ⟨e', he', ?_⟩)⟩
  exact List.mem_filterMap.2 ⟨e, hnode, hsignature⟩

section

variable {m : Module} {settings : Settings} {n : Numbering} (hn : n.Describes m settings.revision) (hm : m.WithinLimits settings)
include hn hm

/-- A call fails exactly if its name is not in the module: under revision 0xB a name that is not imported has to be defined. -/
theorem fault?_callInstr (name : String) :
    fault? (n.references.callInstr name) = if (m.function? name).isSome then none else some (.unresolvedFunction name) := by
  have hrevision : n.references.revision = settings.revision := hn.revision
  have hnumber := Section.fault?_functionNumber hn hm name
  unfold Numbering.functionNumber Module.nameFault Module.resolves at hnumber
  unfold References.callInstr
  rw [hrevision]
  cases hr : settings.revision with
  | v12 =>
    rw [hr] at hnumber
    show fault? ((NameTable.number n.references.functionNumbers name).map Instr.call) = _
    refine (fault?_map _ _).trans (hnumber.trans ?_)
    cases m.function? name <;> rfl
  | v11 =>
    rw [hr] at hnumber hn
    have hlen : (m.importedFunctions.map Function.name).length < 0x100000000 := by
      rw [List.length_map, Module.importedFunctions, List.length_map]
      exact hm.length_imported
    have himport := (hn.importNumbers rfl).isSome_getElem? hlen name
    rw [Module.mem_importedNames_iff] at himport
    cases hget : n.references.importNumbers[name]? with
    | some i =>
      rw [hget] at himport
      obtain ⟨f, hf, -⟩ := himport.1 rfl
      rw [hf]
      rfl
    | none =>
      rw [hget] at himport
      refine (fault?_map _ _).trans (hnumber.trans ?_)
      cases hf : m.function? name with
      | none => rfl
      | some f =>
        have hdefined : f.isImport = false := by
          by_contra hi
          exact Bool.noConfusion (himport.2 ⟨f, hf, by simpa using hi⟩)
        simp [hdefined]

/-- An instruction of a body fails exactly if it calls a name that is not in the module. -/
theorem fault?_resolve {f : Function} (hf : f ∈ m.functions.toList) {s : Symbolic} (hs : s ∈ Expr.flattenAll f.body) :
    fault? (s.resolve n.references) = m.symbolFault s := by
  cases s with
  | plain i => rfl
  | call name => exact fault?_callInstr hn hm name
  | callIndirect s =>
    exact (fault?_map _ _).trans (Section.fault?_number hn hm (Module.mem_signatureUses_of_callIndirect hf hs))

/-- A body fails on its first call of a name that is not in the module. -/
theorem fault?_bodyBytes {f : Function} (hf : f ∈ m.defined) :
    fault? (n.bodyBytes f) = (f.body.flatMap Expr.postorder).findSome? m.nodeFault := by
  have hmem : f ∈ m.functions.toList := (List.mem_filter.1 hf).1
  have hvars : fault? f.writeVars.toBytes = none := by
    show f.writeVars.fault = none
    unfold Function.writeVars
    rw [WriteM.fault_counted (hm.runs f hf), List.findSome?_eq_none_iff]
    intro run _
    simp [LocalRun.write]
  have hcode : fault? (f.body.mapM fun e => (e.write n.references).toBytes) =
      (Expr.flattenAll f.body).findSome? m.symbolFault := by
    rw [← fault?_map _ List.flatten, Expr.flatten_mapM_toBytes_write, fault?_map, fault?_mapM]
    exact findSome?_congr fun s hs => fault?_resolve hn hm hmem hs
  rw [← m.findSome?_symbolFault]
  unfold Numbering.bodyBytes
  refine (fault?_bind hvars fun vars _ => (fault?_bind hcode fun code _ => fault?_ok _)).trans ?_
  simp

/-- The code section fails on the first call of a name that is not in the module, if the bodies are not too long. -/
theorem fault?_codeSection (hbodies : ∀ f ∈ m.defined, ∀ body, n.bodyBytes f = .ok body → body.length < 0x100000000) :
    fault? n.codeSection = m.callFault := by
  have hentry : ∀ f ∈ m.defined, fault? (n.bodyEntry f) = (f.body.flatMap Expr.postorder).findSome? m.nodeFault := by
    intro f hf
    unfold Numbering.bodyEntry
    refine (fault?_bind (fault?_bodyBytes hn hm hf) fun body hbody => ?_).trans Option.or_none
    exact fault?_bind (WriteM.fault_len (hbodies f hf body hbody)) fun length _ => fault?_ok _
  have hparts : fault? (m.defined.mapM n.bodyEntry) = m.callFault := by
    rw [fault?_mapM]
    exact findSome?_congr hentry
  unfold Numbering.codeSection
  rw [hn.defined]
  refine (fault?_bind (WriteM.fault_len hm.length_defined) fun count _ => fault?_bind hparts fun parts _ => fault?_ok _).trans ?_
  simp

omit hn in
/-- The data section has no fault. -/
theorem fault?_data (r : Revision) : fault? (Section.data m r) = none := by
  have hsegment : ∀ s ∈ m.segments, (Section.writeSegment dataChunk r s).fault = none := by
    intro s hs
    cases r <;> simp [Section.writeSegment, WriteM.fault_len (hm.data s hs)]
  unfold Section.data Section.dataInChunks
  rw [Section.fault?_ofWriter_unless, WriteM.fault_counted hm.segments,
    List.findSome?_eq_none_iff.2 hsegment, ite_self]

/-- The name section fails on the first name that is not ASCII. -/
theorem fault?_nameSection :
    fault? (n.nameSection settings) = if settings.nameSection then m.nameSectionFault else none := by
  unfold Numbering.nameSection
  cases hnames : settings.nameSection with
  | false => rfl
  | true =>
    show fault? (some <$> Section.names n) = m.nameSectionFault
    unfold Section.names Module.nameSectionFault
    rw [fault?_map, Section.fault?_ofWriter, hn.defined, WriteM.fault_counted hm.length_defined]
    refine findSome?_congr fun f hf => ?_
    simp [Section.writeName, WriteM.fault_ascii (hm.names hnames f hf)]

/-- The sections of a module fail on its first fault. -/
theorem fault?_plainSections (hbodies : ∀ f ∈ m.defined, ∀ body, n.bodyBytes f = .ok body → body.length < 0x100000000) :
    fault? (m.plainSections settings n) = m.firstFault settings := by
  have hall : fault? (m.plainSections settings n) =
      none.or (m.importFault.or (none.or ((if settings.revision = .v11 then m.tableFault .v11 else none).or (none.or
        ((m.exportFault settings.revision).or ((m.startFault settings.revision).or
          ((if settings.revision = .v12 then m.tableFault .v12 else none).or (m.callFault.or (none.or
            ((if settings.nameSection then m.nameSectionFault else none).or none)))))))))) :=
    fault?_bind (Section.fault?_types hn hm) fun types _ =>
    fault?_bind (Section.fault?_imports hn hm) fun imports _ =>
    fault?_bind (Section.fault?_functions hn hm) fun functions _ =>
    fault?_bind (Section.fault?_table hn hm) fun table _ =>
    fault?_bind (Section.fault?_memory m settings.revision) fun memory _ =>
    fault?_bind (Section.fault?_exports hn hm) fun exports _ =>
    fault?_bind (Section.fault?_start hn hm) fun start _ =>
    fault?_bind (Section.fault?_elements hn hm) fun elements _ =>
    fault?_bind (fault?_codeSection hn hm hbodies) fun code _ =>
    fault?_bind (fault?_data hm settings.revision) fun data _ =>
    fault?_bind (fault?_nameSection hn hm) fun names _ => fault?_ok _
  rw [hall]
  simp only [Option.none_or, Option.or_none]
  rfl

end

/-! ## Faults of whole binaries -/

/-- The names of sections can be written. -/
theorem SectionKind.isAscii_name (k : SectionKind) : isAscii k.name = true ∧ k.name.length < 0x100000000 := by
  have hall : ∀ k ∈ all, isAscii k.name = true ∧ k.name.length < 0x100000000 := by decide
  exact hall k k.mem_all

/-- A frame has no fault, if its name can be written and its content is not too long. -/
theorem Frame.fault_write {r : Revision} {id : UInt8} {name : String} {payload : List UInt8} (hascii : isAscii name = true)
    (hname : name.length < 0x100000000) (h : (Frame.of r id name payload).contentLength < 0x100000000) :
    (Frame.of r id name payload).write.fault = none := by
  have htext : (WriteM.ascii name).toBytes = .ok (Leb128.unsigned name.length ++ asciiBytes name) :=
    WriteM.toBytes_ascii_eq_ok.2 ⟨hascii, hname, rfl⟩
  cases r with
  | v11 =>
    have hlen : (WriteM.len payload.length).fault = none := WriteM.fault_len h
    have htitle : (WriteM.ascii name).fault = none := by rw [WriteM.fault, htext, fault?_ok]
    simp [Frame.of, Frame.write, htitle, hlen]
  | v12 =>
    by_cases hid : id = customId
    · have hof : Frame.of .v12 id name payload = custom name payload := if_pos hid
      rw [hof] at h ⊢
      refine (WriteM.fault_lift_bind (by rw [htext, fault?_ok]) fun title htitle => ?_).trans Option.none_or
      obtain rfl := Except.ok.inj (htext.symm.trans htitle)
      have hlen : (WriteM.len (payload.length + (Leb128.unsigned name.length ++ asciiBytes name).length)).fault = none := by
        refine WriteM.fault_len ?_
        rw [List.length_append, length_asciiBytes]
        exact h
      simp only [WriteM.fault_seq, WriteM.fault_byte, hlen, WriteM.fault_raw, Option.none_or]
    · have hof : Frame.of .v12 id name payload = numbered id payload := if_neg hid
      rw [hof] at h ⊢
      have hlen : (WriteM.len payload.length).fault = none := WriteM.fault_len h
      simp [Frame.write, hlen]

/-- Sections whose contents are not too long can be framed. -/
theorem Section.fault?_frames {r : Revision} {sections : List Section}
    (h : ∀ s ∈ sections, (s.frame r).contentLength < 0x100000000) :
    fault? (sections.mapM fun s => (s.frame r).write.toBytes) = none := by
  rw [fault?_mapM, List.findSome?_eq_none_iff]
  intro s hs
  obtain ⟨hascii, hname⟩ := s.kind.isAscii_name
  exact Frame.fault_write hascii hname (h s hs)

namespace Module

variable {m : Module} {settings : Settings} {n : Numbering} {log : Log}

/-- The lengths of a module that has numbers are those of its bodies and its framed sections. -/
theorem WithinLimits.length_bodyBytes (h : m.WithinLimits settings)
    (hresolve : (Numbering.resolve m settings.revision).run [] = .ok n log) {f : Function} (hf : f ∈ m.defined) {body : List UInt8}
    (hbody : n.bodyBytes f = .ok body) : body.length < 0x100000000 := by
  refine h.encoded _ ?_
  unfold encodedLengths
  rw [hresolve]
  refine List.mem_append_left _ (List.mem_filterMap.2 ⟨f, hf, ?_⟩)
  rw [hbody]
  rfl

theorem WithinLimits.contentLength_frame (h : m.WithinLimits settings)
    (hresolve : (Numbering.resolve m settings.revision).run [] = .ok n log) {sections : List Section}
    (hsections : m.plainSections settings n = .ok sections) {s : Section} (hs : s ∈ sections) :
    (s.frame settings.revision).contentLength < 0x100000000 := by
  refine h.encoded _ ?_
  unfold encodedLengths
  rw [hresolve]
  refine List.mem_append_right _ ?_
  rw [hsections]
  exact List.mem_map_of_mem hs

/-- Rendering fails on the first fault. -/
theorem WithinLimits.fault?_render (h : m.WithinLimits settings) : fault? (m.render settings) = m.firstFault settings := by
  obtain ⟨n, log, hresolve⟩ := Numbering.exists_resolve settings.revision [] h.functions (Nat.le_of_lt h.signatures)
  have hn := Numbering.resolve_describes hresolve
  have hsections := fault?_plainSections hn h fun f hf body hbody => h.length_bodyBytes hresolve hf hbody
  have hbytes : m.render settings = m.bytes settings n := by rw [render_eq, hresolve]
  rw [hbytes]
  unfold Module.bytes
  refine (fault?_bind hsections fun sections hok => ?_).trans Option.or_none
  have hframes := Section.fault?_frames fun s hs => h.contentLength_frame hresolve hok hs
  exact fault?_bind hframes fun frames _ => fault?_ok _

end Module

/-- Rendering a module whose counts and lengths fit in 32 bits fails with the first fault of the module, and with no other error; it
succeeds if there is no fault. A signature that is not in the catalog is never among the errors. -/
theorem render_firstFault {m : Module} {settings : Settings} (h : m.WithinLimits settings) :
    (∀ e, m.render settings = .error e ↔ m.firstFault settings = some e) ∧
      ((∃ bytes, m.render settings = .ok bytes) ↔ m.firstFault settings = none) ∧
      ∀ s, m.render settings ≠ .error (.unregisteredSignature s) := by
  have hfault := h.fault?_render
  refine ⟨fun e => ?_, ?_, fun s hs => ?_⟩
  · rw [← hfault, fault?_eq_some]
  · rw [← hfault, fault?_eq_none]
  · rw [← fault?_eq_some, hfault] at hs
    nomatch m.onlyFaults_firstFault settings _ hs

/-- A module whose table and start name functions that are not there. -/
def Module.astray : Module :=
  { Module.sample with table := ["add", "gone"], start := some "lost" }

/-- The table is met first under revision 0xB, the start first under revision 0xC. -/
theorem render_firstFault_astray :
    (Module.astray.WithinLimits ⟨.v11, true⟩ ∧ Module.astray.render ⟨.v11, true⟩ = .error (.unresolvedFunction "gone")) ∧
      Module.astray.WithinLimits ⟨.v12, true⟩ ∧ Module.astray.render ⟨.v12, true⟩ = .error (.unresolvedFunction "lost") := by
  have hold : Module.astray.WithinLimits ⟨.v11, true⟩ := by decide +kernel
  have hnew : Module.astray.WithinLimits ⟨.v12, true⟩ := by decide +kernel
  refine ⟨⟨hold, ?_⟩, hnew, ?_⟩
  · exact ((render_firstFault hold).1 _).2 (by decide +kernel)
  · exact ((render_firstFault hnew).1 _).2 (by decide +kernel)

end WasmBinary
