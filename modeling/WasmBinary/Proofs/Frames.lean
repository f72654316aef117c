import Mathlib.Data.List.ReduceOption
import WasmBinary.Binary.Reader
import WasmBinary.Proofs.Rendering

/-!
# Framed sections

A section in its frame is read back by the rules of its revision, whatever follows it (`Frame.readBy_write`), so sections in a row are
read back one by one (`Frame.reads_frames`), also after a header (`Binary.ofBytes?_header_append`). Frames of different kinds differ, so a section
is found by its kind (`Binary.payload?_filterMap`).
-/

namespace WasmBinary

open ByteReader

namespace Frame

/-- A framed section is read back as its frame. -/
theorem readBy_write (r : Revision) (id : UInt8) (name : String) (payload : List UInt8) :
    ReadBy (Frame.of r id name payload).write (Frame.read r) (Frame.of r id name payload) := by
  have hpayload : ReadBy (WriteM.len payload.length >>= fun _ => WriteM.raw payload) block payload :=
    readBy_block (WriteM.toBytes_raw _)
  cases r with
  | v11 => exact (readBy_ascii name).seq (hpayload.map (named name))
  | v12 =>
    by_cases hid : id = customId
    · have hof : Frame.of .v12 id name payload = custom name payload := if_pos hid
      rw [hof]
      intro bytes h
      have hlift : (do
          let title ← (WriteM.ascii name).toBytes
          WriteM.byte customId
          WriteM.len (payload.length + title.length)
          WriteM.raw title
          WriteM.raw payload : WriteM Unit).toBytes = .ok bytes := h
      rw [WriteM.toBytes_lift_bind, EncodeError.bind_eq_ok] at hlift
      obtain ⟨title, htitle, hwrite⟩ := hlift
      have hraw : (WriteM.raw title >>= fun _ => WriteM.raw payload : WriteM Unit).toBytes = .ok (title ++ payload) :=
        WriteM.toBytes_seq_eq_ok.2 ⟨_, _, WriteM.toBytes_raw _, WriteM.toBytes_raw _, rfl⟩
      have hcontent := readBy_block hraw
      rw [List.length_append, Nat.add_comm] at hcontent
      -- the name is inside the counted bytes, so it is read from the block and not from what is framed
      have hname : ascii.run (title ++ payload) = some (name, payload) := readBy_ascii name title htitle payload
      refine ReadBy.seq (readBy_byte customId) ?_ bytes hwrite
      intro all hall
      refine (hcontent all hall).bind_nil ?_
      intro rest
      rw [if_pos rfl, hname]
      rfl
    · have hof : Frame.of .v12 id name payload = numbered id payload := if_neg hid
      rw [hof]
      refine (readBy_byte id).seq ?_
      intro bytes h
      refine (hpayload bytes h).bind_nil ?_
      rw [if_neg hid]
      exact reads_pure _

/-- There is no frame in no bytes. -/
theorem read_nil (r : Revision) : (Frame.read r).run [] = none := by
  cases r <;> rfl

/-- Framed sections in a row are read back as their frames: as many as there are, and up to the end. -/
theorem reads_frames {α : Type} {r : Revision} {frame : α → Frame} (hframe : ∀ a, ReadBy (frame a).write (Frame.read r) (frame a))
    {items : List α} {frames : List (List UInt8)} (h : (items.mapM fun a => (frame a).write.toBytes) = .ok frames) :
    Reads (repeated (Frame.read r) items.length) frames.flatten (items.map frame) ∧
      toEnd (Frame.read r) frames.flatten = some (items.map frame) := by
  have hparts := EncodeError.mapM_eq_ok.1 h
  have hread : List.Forall₂ (Reads (Frame.read r)) frames (items.map frame) := by
    rw [List.forall₂_map_right_iff]
    exact hparts.flip.imp fun bytes a ha => hframe a bytes ha
  refine ⟨hparts.length_eq ▸ reads_repeated hread, toEnd_flatten hread ?_⟩
  intro part hpart
  obtain ⟨i, hi, rfl⟩ := List.getElem_of_mem hpart
  exact (List.Forall₂.get hread hi (by rw [← hread.length_eq]; exact hi)).ne_nil (Frame.read_nil r)

end Frame

/-! ## Sections and their frames -/

namespace SectionKind

theorem mem_all (k : SectionKind) : k ∈ all := by
  cases k <;> decide

theorem id_injective {k l : SectionKind} (h : k.id = l.id) : k = l := by
  have hall : ∀ k ∈ all, ∀ l ∈ all, k.id = l.id → k = l := by decide
  exact hall k k.mem_all l l.mem_all h

theorem name_injective {k l : SectionKind} (h : k.name = l.name) : k = l := by
  have hall : ∀ k ∈ all, ∀ l ∈ all, k.name = l.name → k = l := by decide
  exact hall k k.mem_all l l.mem_all h

/-- Frames of different kinds differ, whatever their payloads. -/
theorem frame_eq_iff (r : Revision) (k l : SectionKind) (payload : List UInt8) :
    Frame.of r k.id k.name payload = Frame.of r l.id l.name payload ↔ k = l := by
  constructor
  · intro h
    cases r with
    | v11 => exact name_injective (Frame.named.inj h).1
    | v12 =>
      unfold Frame.of at h
      by_cases hk : k.id = customId <;> by_cases hl : l.id = customId
      · exact id_injective (hk.trans hl.symm)
      · rw [if_pos hk, if_neg hl] at h
        nomatch h
      · rw [if_neg hk, if_pos hl] at h
        nomatch h
      · rw [if_neg hk, if_neg hl] at h
        exact id_injective (Frame.numbered.inj h).1
  · rintro rfl
    rfl

end SectionKind

theorem Section.payload_frame (r : Revision) (s : Section) : (s.frame r).payload = s.payload := by
  unfold Section.frame Frame.of
  cases r with
  | v11 => rfl
  | v12 => by_cases h : s.kind.id = customId <;> simp [h, Frame.payload]

/-- In a list of sections, taken kind by kind, the section of a kind is the one taken for it. -/
theorem Section.find?_filterMap {get : SectionKind → Option Section} (hget : ∀ kind, ∀ s ∈ get kind, s.kind = kind)
    (kind : SectionKind) (kinds : List SectionKind) :
    (kinds.filterMap get).find? (·.kind = kind) = if kind ∈ kinds then get kind else none := by
  induction kinds with
  | nil => rfl
  | cons k kinds ih =>
    cases hk : get k with
    | none =>
      rw [List.filterMap_cons_none hk, ih]
      by_cases h : kind = k
      · subst h
        simp [hk]
      · simp [h]
    | some s =>
      have hs : s.kind = k := hget k s hk
      rw [List.filterMap_cons_some hk]
      by_cases h : kind = k
      · subst h
        rw [List.find?_cons_of_pos (by simpa using hs), if_pos List.mem_cons_self, hk]
      · rw [List.find?_cons_of_neg (by simpa [hs] using Ne.symm h), ih]
        simp [h]

namespace Binary

/-- A header and framed sections are read back as the revision and the frames. -/
theorem ofBytes?_header_append {r : Revision} {sections : List Section} {frames : List (List UInt8)}
    (h : (sections.mapM fun s => (s.frame r).write.toBytes) = .ok frames) :
    ofBytes? (r.header ++ frames.flatten) = some ⟨r, sections.map (Section.frame r)⟩ := by
  obtain ⟨-, hframes⟩ := Frame.reads_frames (fun s : Section => Frame.readBy_write r s.kind.id s.kind.name s.payload) h
  have hheader : Reads readHeader r.header r := by
    refine (reads_word32 magic).bind (Reads.guard_bind rfl ((reads_word32 r.tag).bind_nil ?_))
    rw [Revision.ofTag?_tag]
    exact reads_pure r
  unfold ofBytes?
  rw [hheader]
  show (do return ⟨r, ← toEnd (Frame.read r) frames.flatten⟩ : Option Binary) = _
  rw [hframes]
  rfl

/-- The payload of a kind is that of the section taken for the kind. -/
theorem payload?_filterMap (r : Revision) {get : SectionKind → Option Section} (hget : ∀ kind, ∀ s ∈ get kind, s.kind = kind)
    (kind : SectionKind) :
    payload? ⟨r, (SectionKind.all.filterMap get).map (Section.frame r)⟩ kind = (get kind).map Section.payload := by
  have hframe : (fun s : Section => s.frame r == Frame.of r kind.id kind.name (s.frame r).payload) =
      fun s => decide (s.kind = kind) := by
    funext s
    rw [Section.payload_frame]
    by_cases hs : s.kind = kind
    · simp [Section.frame, hs]
    · have hne : Section.frame r s ≠ Frame.of r kind.id kind.name s.payload :=
        fun e => hs ((SectionKind.frame_eq_iff r _ _ _).1 e)
      simp [hs, hne]
  unfold payload?
  rw [List.find?_map]
  show Option.map Frame.payload (Option.map (Section.frame r) ((SectionKind.all.filterMap get).find? fun s =>
    s.frame r == Frame.of r kind.id kind.name (s.frame r).payload)) = _
  rw [hframe, Section.find?_filterMap hget, if_pos kind.mem_all, Option.map_map]
  exact congrArg (Option.map · (get kind)) (funext (Section.payload_frame r))

end Binary

end WasmBinary
