import Mathlib.Data.List.Nodup
import WasmBinary.Proofs.CrossReferences

/-!
# The two revisions of a module

A module that is rendered for both revisions is the same program in both. Signatures, imported functions, memory and segments do not
depend on the revision. The functions that the module defines are numbered from zero under revision 0xB and after the imported ones
under 0xC, so each number of a defined function grows by the number of imported functions, in exports, the start, the table and
calls; a call of an imported function keeps its number and changes its instruction (`Instr.Rebased`).
-/

namespace WasmBinary

/-- A number that grows by `n`, and still fits in 32 bits. -/
def Shifted (n : Nat) (i j : UInt32) : Prop :=
  j.toNat = i.toNat + n

/-- What becomes of an instruction of revision 0xB, where `n` functions are imported: the imported functions are called like all
others, and the defined ones have greater numbers. -/
inductive Instr.Rebased (n : Nat) : Instr → Instr → Prop
  | callImport (i : UInt32) : Rebased n (.callImport i) (.call i)
  | call {i j : UInt32} (h : Shifted n i j) : Rebased n (.call i) (.call j)
  | other (i : Instr) (hcall : ∀ j, i ≠ .call j) (himport : ∀ j, i ≠ .callImport j) : Rebased n i i

/-- What becomes of a binary of revision 0xB under revision 0xC, where `n` functions are imported. -/
structure Contents.Rebased (n : Nat) (old new : Contents) : Prop where
  /-- The imported functions are the same, down to the numbers of their signatures. -/
  imports : new.imports = old.imports
  /-- The memory has the same size. -/
  memory : new.memory = old.memory
  /-- The segments are the same. -/
  segments : new.segments = old.segments
  /-- The exported functions have the same export names and greater numbers. -/
  exports : List.Forall₂ (fun e e' => e'.name = e.name ∧ Shifted n e.function e'.function) old.exports new.exports
  /-- The function to start with has a greater number. -/
  start : Option.Rel (Shifted n) old.start new.start
  /-- The functions in the table have greater numbers. -/
  table : List.Forall₂ (Shifted n) old.table new.table
  /-- The bodies have the same locals, and their code is the same up to the numbers of functions and one more `end_`. -/
  bodies : List.Forall₂ (fun b b' => b'.locals = b.locals ∧
    ∃ code, List.Forall₂ (Instr.Rebased n) b.code code ∧ b'.code = code ++ [.end_]) old.bodies new.bodies

/-! ## Places in the lists of functions and signatures -/

namespace Module

variable {m : Module} {i j : UInt32} {name : String}

theorem nodup_importedFunctions_append_defined (m : Module) : (m.importedFunctions ++ m.defined).Nodup :=
  List.Nodup.of_map _ m.importedFunctions_append_defined_nodup

/-- Where all functions are numbered in one sequence, a defined function comes after all imported ones. -/
theorem Selects.shifted (hi : m.Selects (m.numbered .v11) i name) (hj : m.Selects (m.numbered .v12) j name) :
    Shifted m.imported.length i j := by
  obtain ⟨f, hf, hi⟩ := hi
  obtain ⟨g, hg, hj⟩ := hj
  obtain rfl : f = g := Option.some.inj (hf.symm.trans hg)
  have hlen : m.importedFunctions.length = m.imported.length := List.length_map ..
  have hplace : (m.importedFunctions ++ m.defined)[m.imported.length + i.toNat]? = some f := by
    rw [← hlen, List.getElem?_append_right (Nat.le_add_right _ _), Nat.add_sub_cancel_left]
    exact hi
  obtain ⟨hlt, -⟩ := List.getElem?_eq_some_iff.1 hj
  have h := (List.getElem?_inj hlt m.nodup_importedFunctions_append_defined).1 (hj.trans hplace.symm)
  rw [Shifted, h, Nat.add_comm]

/-- Where all functions are numbered in one sequence, an imported function keeps its number. -/
theorem Selects.eq_of_imported (hi : m.Selects m.importedFunctions i name) (hj : m.Selects (m.numbered .v12) j name) : j = i := by
  obtain ⟨f, hf, hi⟩ := hi
  obtain ⟨g, hg, hj⟩ := hj
  obtain rfl : f = g := Option.some.inj (hf.symm.trans hg)
  have hplace : (m.importedFunctions ++ m.defined)[i.toNat]? = some f := by
    rw [List.getElem?_append_left (List.getElem?_eq_some_iff.1 hi).1]
    exact hi
  obtain ⟨hlt, -⟩ := List.getElem?_eq_some_iff.1 hj
  exact UInt32.toNat_inj.1 ((List.getElem?_inj hlt m.nodup_importedFunctions_append_defined).1 (hj.trans hplace.symm))

end Module

/-- What a symbolic instruction stands for under the two revisions differs in the numbers of functions only. -/
theorem Resolves.rebased {m : Module} {types : List Signature} (htypes : types.Nodup) {s : Symbolic} {i j : Instr} (hs : s.Proper)
    (hi : Resolves m .v11 types s i) (hj : Resolves m .v12 types s j) : Instr.Rebased m.imported.length i j := by
  cases hi with
  | plain i =>
    cases hj
    have hcall : i.isCall = false := hs
    refine .other i ?_ ?_
    · rintro k rfl
      nomatch hcall
    · rintro k rfl
      nomatch hcall
  | callImport hr hi =>
    cases hj with
    | callImport hr => nomatch hr
    | call hj => exact hi.eq_of_imported hj ▸ .callImport _
  | call hi =>
    cases hj with
    | callImport hr => nomatch hr
    | call hj => exact .call (hi.shifted hj)
  | callIndirect hi =>
    cases hj with
    | callIndirect hj =>
      obtain ⟨hlt, -⟩ := List.getElem?_eq_some_iff.1 hi
      rw [UInt32.toNat_inj.1 ((List.getElem?_inj hlt htypes).1 (hi.trans hj.symm))]
      exact .other _ (fun _ h => nomatch h) (fun _ h => nomatch h)

/-! ## Whole binaries -/

namespace Contents

variable {m : Module} {nameSection : Bool} {old new : Contents}

/-- An imported function has one entry only. -/
theorem Imports.eq {c : Contents} (htypes : c.types.Nodup) {p : Function × ImportSource} {e e' : ImportEntry} (he : c.Imports p e)
    (he' : c.Imports p e') : e = e' := by
  obtain ⟨hmodule, hname, hsignature⟩ := he
  obtain ⟨hmodule', hname', hsignature'⟩ := he'
  obtain ⟨hlt, -⟩ := List.getElem?_eq_some_iff.1 hsignature
  have hplace : e.signature = e'.signature :=
    UInt32.toNat_inj.1 ((List.getElem?_inj hlt htypes).1 (hsignature.trans hsignature'.symm))
  cases e
  cases e'
  simp only at hmodule hname hmodule' hname' hplace
  rw [hmodule, hname, hmodule', hname', hplace]

/-- The body of a function under revision 0xB becomes its body under revision 0xC. -/
theorem Implements.rebased (hold : old.revision = .v11) (hnew : new.revision = .v12) (htypes : new.types = old.types)
    (hnodup : old.types.Nodup) {f : Function} {b b' : Body} (hb : old.Implements m f b) (hb' : new.Implements m f b') :
    b'.locals = b.locals ∧
      ∃ code, List.Forall₂ (Instr.Rebased m.imported.length) b.code code ∧ b'.code = code ++ [.end_] := by
  obtain ⟨hlocals, code, hcode, hclosed⟩ := hb
  obtain ⟨hlocals', code', hcode', hclosed'⟩ := hb'
  rw [hold] at hcode hclosed
  rw [hnew] at hcode' hclosed'
  rw [htypes] at hcode'
  refine ⟨hlocals'.trans hlocals.symm, code', ?_, hclosed'⟩
  rw [hclosed]
  show List.Forall₂ _ (code ++ []) code'
  rw [List.append_nil]
  exact forall₂_of_common hcode hcode' fun s hs i j hi hj => hi.rebased hnodup (Expr.proper_flattenAll f.body s hs) hj

/-- What a module says under revision 0xB becomes what it says under revision 0xC. -/
theorem Represents.rebased (h : old.Represents m ⟨.v11, nameSection⟩) (h' : new.Represents m ⟨.v12, nameSection⟩) :
    Rebased m.imported.length old new := by
  have hr : old.revision = .v11 := h.revision
  have hr' : new.revision = .v12 := h'.revision
  have htypes : new.types = old.types := h'.types.trans h.types.symm
  have hnodup : old.types.Nodup := by
    rw [h.types]
    exact Catalog.nodup_eraseDups _
  have himports : List.Forall₂ old.Imports m.imported new.imports := by
    have hi := h'.imports
    unfold Imports at hi ⊢
    rwa [htypes] at hi
  have hexports := h.exports
  have hexports' := h'.exports
  have hstart := h.start
  have hstart' := h'.start
  have htable := h.table
  have htable' := h'.table
  rw [hr] at hexports hstart htable
  rw [hr'] at hexports' hstart' htable'
  exact {
    imports := by
      have heq : List.Forall₂ Eq old.imports new.imports :=
        forall₂_of_common h.imports himports fun p _ e e' he he' => he.eq hnodup he'
      rw [List.forall₂_eq_eq_eq] at heq
      exact heq.symm
    memory := h'.memory.trans h.memory.symm
    segments := h'.segments.trans h.segments.symm
    exports := forall₂_of_common hexports hexports' fun p _ e e' he he' => ⟨he'.1.trans he.1.symm, he.2.shifted he'.2⟩
    start := by
      generalize m.start = name at hstart hstart'
      generalize old.start = i at hstart
      generalize new.start = j at hstart'
      cases hstart with
      | none =>
        cases hstart'
        exact .none
      | some hi =>
        cases hstart' with
        | some hj => exact .some (hi.shifted hj)
    table := forall₂_of_common htable htable' fun name _ i j hi hj => hi.shifted hj
    bodies := forall₂_of_common h.bodies h'.bodies fun f _ b b' hb hb' => hb.rebased hr hr' htypes hnodup hb' }

end Contents

/-- Signatures are numbered alike under all revisions. -/
theorem Numbering.Describes.signatures_eq {m : Module} {r r' : Revision} {n n' : Numbering} (h : n.Describes m r)
    (h' : n'.Describes m r') : n.references.signatures = n'.references.signatures :=
  Catalog.eq_of_signatures_eq (h.signatures.trans h'.signatures.symm)

/-- The sections that do not depend on the revision. -/
theorem Slots.Made.sections_eq {m : Module} {nameSection : Bool} {r r' : Revision} {n n' : Numbering} {s s' : Slots}
    (hn : n.Describes m r) (hn' : n'.Describes m r') (h : s.Made m ⟨r, nameSection⟩ n) (h' : s'.Made m ⟨r', nameSection⟩ n') :
    s'.types = s.types ∧ s'.functions = s.functions ∧ s'.names = s.names := by
  have hsignatures := hn.signatures_eq hn'
  have hdefined : n.defined = n'.defined := hn.defined.trans hn'.defined.symm
  have htypes : Section.types n = Section.types n' := by
    unfold Section.types Numbering.signatures
    rw [hsignatures]
  have hfunctions : Section.functions n = Section.functions n' := by
    unfold Section.functions Numbering.signatureNumber
    rw [hsignatures, hdefined]
  have hnames : n.nameSection ⟨r, nameSection⟩ = n'.nameSection ⟨r', nameSection⟩ := by
    unfold Numbering.nameSection Section.names
    rw [hdefined]
  refine ⟨?_, ?_, ?_⟩
  · exact Except.ok.inj (h'.types.symm.trans (htypes.symm.trans h.types))
  · exact Except.ok.inj (h'.functions.symm.trans (hfunctions.symm.trans h.functions))
  · exact Except.ok.inj (h'.names.symm.trans (hnames.symm.trans h.names))

/-- A module that is rendered for both revisions is the same program in both: the type, function and name sections are the same
bytes, and the rest of the binary of revision 0xC is what becomes of the one of revision 0xB. -/
theorem render_revisions {m : Module} {nameSection : Bool} {bytes bytes' : List UInt8}
    (h : m.render ⟨.v11, nameSection⟩ = .ok bytes) (h' : m.render ⟨.v12, nameSection⟩ = .ok bytes') :
    ∃ old new c c', Binary.ofBytes? bytes = some old ∧ Binary.ofBytes? bytes' = some new ∧
      old.contents? = some c ∧ new.contents? = some c' ∧ c.revision = .v11 ∧ c'.revision = .v12 ∧
      (∀ kind ∈ [SectionKind.types, .functions, .names], new.payload? kind = old.payload? kind) ∧
      c.Rebased m.imported.length c' := by
  obtain ⟨n, s, hn, hmade, hbytes⟩ := Module.exists_slots_of_render h
  obtain ⟨n', s', hn', hmade', hbytes'⟩ := Module.exists_slots_of_render h'
  obtain ⟨c, hc, hrep⟩ := hmade.exists_contents hn
  obtain ⟨c', hc', hrep'⟩ := hmade'.exists_contents hn'
  obtain ⟨htypes, hfunctions, hnames⟩ := hmade.sections_eq hn hn' hmade'
  refine ⟨_, _, c, c', hbytes, hbytes', hc, hc', hrep.revision, hrep'.revision, ?_, hrep.rebased hrep'⟩
  have hget : ∀ kind ∈ [SectionKind.types, .functions, .names], s'.get kind = s.get kind := by
    simp [Slots.get, htypes, hfunctions, hnames]
  intro kind hkind
  rw [hmade.payload?_eq, hmade'.payload?_eq, hget kind hkind]

/-- A module with one imported function, whose other functions have numbers that grow by one. -/
theorem render_revisions_sample :
    ∃ bytes bytes' old new c c', Module.sample.render ⟨.v11, true⟩ = .ok bytes ∧ Module.sample.render ⟨.v12, true⟩ = .ok bytes' ∧
      Binary.ofBytes? bytes = some old ∧ Binary.ofBytes? bytes' = some new ∧ old.contents? = some c ∧ new.contents? = some c' ∧
      new.payload? .types = old.payload? .types ∧ c.Rebased 1 c' := by
  obtain ⟨bytes, hbytes⟩ := Module.exists_render_sample .v11
  obtain ⟨bytes', hbytes'⟩ := Module.exists_render_sample .v12
  obtain ⟨old, new, c, c', hold, hnew, hc, hc', -, -, hpayloads, hrebased⟩ := render_revisions hbytes hbytes'
  exact ⟨bytes, bytes', old, new, c, c', hbytes, hbytes', hold, hnew, hc, hc', hpayloads .types (by decide), hrebased⟩

end WasmBinary
