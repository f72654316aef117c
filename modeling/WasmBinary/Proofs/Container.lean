import WasmBinary.Proofs.Contents

/-!
# Sections of a binary

Which sections the binary of a module has depends on the module and the settings only (`Module.hasSection`), not on the encoder. They
stand in file order, so under revision 0xC their numbers grow and the custom section is the last (`Binary.NumbersGrow`).
-/

namespace WasmBinary

open ByteReader

variable {σ : Type}

/-! ## Which sections there are -/

/-- Whether the binary of a module has a section of a kind. -/
def Module.hasSection (m : Module) (settings : Settings) : SectionKind → Bool
  | .types | .functions | .memory | .code => true
  | .imports => m.functions.toList.any Function.isImport
  | .table => !m.table.isEmpty
  | .exports => m.functions.toList.any fun f => f.exportName.isSome
  | .start => m.start.isSome
  | .elements => settings.revision = .v12 && !m.table.isEmpty
  | .data => !m.segments.isEmpty
  | .names => settings.nameSection

namespace Module

theorem isEmpty_imported (m : Module) : m.imported.isEmpty = !m.functions.toList.any Function.isImport := by
  unfold imported
  rw [isEmpty_filterMap]
  simp only [Option.isSome_map]
  rfl

theorem isEmpty_exported (m : Module) : m.exported.isEmpty = !m.functions.toList.any fun f => f.exportName.isSome := by
  unfold exported
  rw [isEmpty_filterMap]
  simp only [Option.isSome_map]

end Module

/-- A section that is left out under some condition is there exactly otherwise. -/
theorem Section.isSome_of_ofWriter_unless {kind : SectionKind} {w : WriteM Unit} {c : Bool} {o : Option Section}
    (h : (if c then return none else some <$> ofWriter kind w : Except EncodeError (Option Section)) = .ok o) :
    o.isSome = !c := by
  rcases ofWriter_unless_eq_ok h with ⟨rfl, rfl⟩ | ⟨rfl, s, -, rfl⟩
  · rfl
  · rfl

namespace Slots.MadeBy

variable {t : Slots} {encoder : ExprEncoder σ} {m : Module} {settings : Settings} {n : Numbering} {before after : σ}

/-- In the place of each kind stands a section exactly if the module has one of that kind. -/
theorem isSome_get (h : t.MadeBy encoder m settings n before after) (hn : n.Describes m settings.revision) (kind : SectionKind) :
    (t.get kind).isSome = m.hasSection settings kind := by
  cases kind with
  | types | functions | memory | code => rfl
  | imports =>
    have hsome := Section.isSome_of_ofWriter_unless h.imports
    rwa [hn.imported, Module.isEmpty_imported, Bool.not_not] at hsome
  | table => exact Section.isSome_of_ofWriter_unless h.table
  | exports =>
    have hsome := Section.isSome_of_ofWriter_unless h.exports
    rwa [Module.isEmpty_exported, Bool.not_not] at hsome
  | start =>
    have hstart := h.start
    unfold Section.start at hstart
    cases hname : m.start with
    | none =>
      rw [hname] at hstart
      have hnone : none = t.start := Except.ok.inj hstart
      simp [get, Module.hasSection, hname, ← hnone]
    | some name =>
      rw [hname] at hstart
      obtain ⟨s, -, hsome⟩ := EncodeError.map_eq_ok.1 hstart
      simp [get, Module.hasSection, hname, ← hsome]
  | elements =>
    have hsome := Section.isSome_of_ofWriter_unless h.elements
    rw [hn.revision] at hsome
    rw [get, hsome, Module.hasSection]
    cases settings.revision <;> cases m.table <;> rfl
  | data => exact Section.isSome_of_ofWriter_unless h.data
  | names =>
    -- the other sections say when they are left out, this one when it is there
    have hnames : (if !settings.nameSection then return none else some <$> Section.names n) = .ok t.names := by
      rw [← h.names, Numbering.nameSection]
      cases settings.nameSection <;> rfl
    have hsome := Section.isSome_of_ofWriter_unless hnames
    rwa [Bool.not_not] at hsome

/-- The sections of any of the kinds are of these kinds, less those that the module has no section of. -/
theorem map_kind_filterMap (h : t.MadeBy encoder m settings n before after) (hn : n.Describes m settings.revision)
    (kinds : List SectionKind) : (kinds.filterMap t.get).map Section.kind = kinds.filter (m.hasSection settings) := by
  induction kinds with
  | nil => rfl
  | cons kind kinds ih =>
    have hsome := h.isSome_get hn kind
    rw [List.filterMap_cons, List.filter_cons, ← hsome]
    cases hget : t.get kind with
    | none => exact ih
    | some s =>
      rw [List.map_cons, ih, h.kind_get kind s hget]
      rfl

end Slots.MadeBy

/-! ## The order of the sections -/

namespace SectionKind

/-- Every kind of section that has a number of its own, in file order. -/
def numbered : List SectionKind :=
  [types, imports, functions, table, memory, exports, start, elements, code, data]

theorem all_eq : all = numbered ++ [names] := rfl

/-- The numbers of the kinds grow in file order. -/
theorem pairwise_id_numbered : (numbered.map id).Pairwise (· < ·) := by
  decide

theorem id_ne_customId {kind : SectionKind} (h : kind ∈ numbered) : kind.id ≠ customId := by
  have hall : ∀ kind ∈ numbered, kind.id ≠ customId := by decide
  exact hall kind h

end SectionKind

/-- The frames are numbered sections whose numbers grow, and then at most one custom section. -/
def Binary.NumbersGrow (b : Binary) : Prop :=
  ∃ (sections : List (UInt8 × List UInt8)) (custom : Option (String × List UInt8)),
    b.frames = sections.map (fun p => .numbered p.1 p.2) ++ custom.toList.map (fun p => .custom p.1 p.2) ∧
      (∀ p ∈ sections, p.1 ≠ customId) ∧ (sections.map Prod.fst).Pairwise (· < ·)

/-- Under revision 0xC the numbers of the sections grow, and the custom section is the last. -/
theorem Slots.MadeBy.numbersGrow {t : Slots} {encoder : ExprEncoder σ} {m : Module} {settings : Settings} {n : Numbering}
    {before after : σ} (h : t.MadeBy encoder m settings n before after) (hn : n.Describes m settings.revision) :
    (t.binary .v12).NumbersGrow := by
  have hnumbered : ∀ s ∈ SectionKind.numbered.filterMap t.get, s.kind.id ≠ customId := by
    intro s hs
    obtain ⟨kind, hkind, hget⟩ := List.mem_filterMap.1 hs
    rw [h.kind_get kind s hget]
    exact SectionKind.id_ne_customId hkind
  refine ⟨(SectionKind.numbered.filterMap t.get).map fun s => (s.kind.id, s.payload),
    (t.get .names).map fun s => (s.kind.name, s.payload), ?_, ?_, ?_⟩
  · show (SectionKind.all.filterMap t.get).map (Section.frame .v12) = _
    rw [SectionKind.all_eq, List.filterMap_append, List.map_append, List.map_map]
    congr 1
    · exact List.map_congr_left fun s hs => if_neg (hnumbered s hs)
    · cases hget : t.get .names with
      | none => simp [hget]
      | some s =>
        have hkind := h.kind_get .names s hget
        simp [hget, Section.frame, Frame.of, SectionKind.id, hkind]
  · intro p hp
    obtain ⟨s, hs, rfl⟩ := List.mem_map.1 hp
    exact hnumbered s hs
  · -- the numbers of the sections that are there are some of the numbers of all kinds
    have hsorted := SectionKind.pairwise_id_numbered.sublist
      ((List.filter_sublist (p := m.hasSection settings) (l := SectionKind.numbered)).map SectionKind.id)
    rw [← h.map_kind_filterMap hn, List.map_map] at hsorted
    rw [List.map_map]
    exact hsorted

/-- A rendered module is read back to its last byte as the header of its revision and its sections. Their payloads are what the
sections of the module come out as one by one, with any encoder. They stand in file order, each kind at most once, and a kind is there
exactly if the module has a section of it. Under revision 0xC their numbers grow and the custom section is the last. -/
theorem render_container {encoder : ExprEncoder σ} {settings : Settings} {m : Module} {before after : RenderState σ}
    {bytes : List UInt8} (h : (encoder.render settings m).run before = .ok bytes after) :
    ∃ (n : Numbering) (log : Log) (t : Slots) (b : Binary),
      (Numbering.resolve m settings.revision).run before.log = .ok n log ∧
      t.MadeBy encoder m settings n before.encoder after.encoder ∧
      Binary.ofBytes? bytes = some b ∧ b.revision = settings.revision ∧
      b.frames = (SectionKind.all.filterMap t.get).map (Section.frame settings.revision) ∧
      b.frames.map Frame.payload = (SectionKind.all.filterMap t.get).map Section.payload ∧
      (SectionKind.all.filterMap t.get).map Section.kind = SectionKind.all.filter (m.hasSection settings) ∧
      (∀ kind, (t.get kind).isSome = m.hasSection settings kind) ∧
      (settings.revision = .v12 → b.NumbersGrow) := by
  obtain ⟨n, log, t, hresolve, hn, hmade, hbytes⟩ := ExprEncoder.exists_slots_of_render h
  refine ⟨n, log, t, t.binary settings.revision, hresolve, hmade, hbytes, rfl, rfl, ?_, hmade.map_kind_filterMap hn _,
    hmade.isSome_get hn, fun hr => ?_⟩
  · show ((SectionKind.all.filterMap t.get).map (Section.frame settings.revision)).map Frame.payload = _
    rw [List.map_map]
    exact List.map_congr_left fun s _ => Section.payload_frame settings.revision s
  · rw [hr]
    exact hmade.numbersGrow hn

/-- A module with a section of every kind under revision 0xC. -/
theorem render_container_sample :
    ∃ bytes after b, (standardEncoder.render ⟨.v12, true⟩ Module.sample).run ⟨(), []⟩ = .ok bytes after ∧
      Binary.ofBytes? bytes = some b ∧ b.frames.length = 11 ∧ b.NumbersGrow := by
  obtain ⟨bytes, hbytes⟩ := Module.exists_render_sample .v12
  obtain ⟨after, hrun⟩ := Module.render_eq_ok.1 hbytes
  obtain ⟨n, log, t, b, -, -, hb, -, hframes, -, hkinds, -, hgrow⟩ := render_container hrun
  refine ⟨bytes, after, b, hrun, hb, ?_, hgrow rfl⟩
  have hlength := congrArg List.length hkinds
  rw [List.length_map] at hlength
  rw [hframes, List.length_map, hlength]
  decide

end WasmBinary
