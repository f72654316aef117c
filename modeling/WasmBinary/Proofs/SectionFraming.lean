import WasmBinary.Proofs.FirstFault

/-!
# Framing sections of any kind

A section that is to be framed has a number, a name and a payload, all of them arbitrary (`SectionParts`). Revision 0xB writes its name;
revision 0xC writes its number, and its name only if it is a custom section (`SectionParts.ShowsName`). Sections whose written names are
ASCII and whose lengths fit in 32 bits add the same bytes to every buffer, and are read back from there (`SectionParts.framedAs`). A written
name that is not ASCII is refused before anything is written (`SectionParts.run_write_of_not_ascii`); a name that is not written does not
matter (`SectionParts.frame_withName`).
-/

namespace WasmBinary

open ByteReader

instance Frame.appends_write (f : Frame) : f.write.Appends := by
  cases f <;> (unfold Frame.write; infer_instance)

/-- Writes what stands in front of the payload of a framed section. -/
def Frame.writeHeader : Frame → WriteM Unit
  | named name payload => do
    WriteM.ascii name
    WriteM.len payload.length
  | numbered id payload => do
    WriteM.byte id
    WriteM.len payload.length
  | custom name payload => do
    let title ← (WriteM.ascii name).toBytes
    WriteM.byte customId
    WriteM.len (payload.length + title.length)
    WriteM.raw title

/-- A framed section is its header, then its payload. -/
theorem Frame.toBytes_write (f : Frame) : f.write.toBytes = (· ++ f.payload) <$> f.writeHeader.toBytes := by
  have hwrite : f.write = f.writeHeader >>= fun _ => WriteM.raw f.payload := by
    cases f <;> simp only [write, writeHeader, payload, bind_assoc]
  rw [hwrite, WriteM.toBytes_seq, WriteM.toBytes_raw, map_eq_pure_bind]
  rfl

/-- A section that is to be framed. -/
structure SectionParts where
  /-- The number of the section. -/
  id : UInt8
  /-- The name of the section. -/
  name : String
  /-- The bytes of the section. -/
  payload : List UInt8
  deriving DecidableEq

namespace SectionParts

/-- The frame of the section. -/
def frame (r : Revision) (s : SectionParts) : Frame :=
  Frame.of r s.id s.name s.payload

/-- Writes the section in its frame. -/
def write (r : Revision) (s : SectionParts) : WriteM Unit :=
  (s.frame r).write

instance appends_write (r : Revision) (s : SectionParts) : (s.write r).Appends :=
  Frame.appends_write _

/-- The frame has the name of the section in it. -/
def ShowsName (r : Revision) (s : SectionParts) : Prop :=
  r = .v11 ∨ s.id = customId

instance (r : Revision) (s : SectionParts) : Decidable (s.ShowsName r) :=
  inferInstanceAs (Decidable (_ ∨ _))

/-- The section can be framed: its name is ASCII, if it is written, and the lengths that are written fit in 32 bits. -/
def Fits (r : Revision) (s : SectionParts) : Prop :=
  (s.ShowsName r → isAscii s.name = true ∧ s.name.length < 0x100000000) ∧ (s.frame r).contentLength < 0x100000000

instance (r : Revision) (s : SectionParts) : Decidable (s.Fits r) :=
  inferInstanceAs (Decidable ((_ → _) ∧ _))

/-! ## One section -/

/-- A name that is not written can be any other. -/
theorem frame_withName {r : Revision} {s : SectionParts} (h : ¬s.ShowsName r) (name : String) :
    ({ s with name } : SectionParts).frame r = s.frame r := by
  obtain ⟨hr, hid⟩ := not_or.1 h
  cases r with
  | v11 => exact absurd rfl hr
  | v12 => simp [frame, Frame.of, hid]

/-- A section that fits is written. -/
theorem Fits.fault_write {r : Revision} {s : SectionParts} (h : s.Fits r) : (s.write r).fault = none := by
  obtain ⟨hname, hlength⟩ := h
  by_cases hshows : s.ShowsName r
  · obtain ⟨hascii, hshort⟩ := hname hshows
    exact Frame.fault_write hascii hshort hlength
  · -- the name is not written, so it may as well be empty
    rw [← frame_withName hshows ""] at hlength
    rw [write, ← frame_withName hshows ""]
    have hascii : isAscii "" = true := by decide
    have hshort : "".length < 0x100000000 := by decide
    exact Frame.fault_write hascii hshort hlength

/-- A name that is to be written and is not ASCII is refused, and nothing is written. -/
theorem run_write_of_not_ascii {r : Revision} {s : SectionParts} (hshows : s.ShowsName r) (h : isAscii s.name = false) (buffer : Buffer) :
    (s.write r).run buffer = .error (.nonAscii s.name) buffer := by
  have htitle := WriteM.run_ascii_of_not_ascii h
  cases r with
  | v11 => exact EncodeError.run_bind_eq_error.2 (.inl (htitle buffer))
  | v12 =>
    have hid : s.id = customId := by simpa [ShowsName] using hshows
    have hbytes : (WriteM.ascii s.name).toBytes = .error (.nonAscii s.name) := by
      rw [WriteM.toBytes, htitle]
    rw [write, frame, Frame.of, if_pos hid]
    exact EncodeError.run_lift_bind_eq_error.2 (.inl ⟨hbytes, rfl⟩)

/-! ## Sections in a row -/

/-- Writes sections in their frames, one after another. -/
def writeAll (r : Revision) (sections : List SectionParts) : WriteM Unit :=
  sections.forM (write r)

instance appends_writeAll (r : Revision) (sections : List SectionParts) : (writeAll r sections).Appends :=
  WriteM.appends_forM sections

/-- The sections add the same bytes to every buffer. These are read back as the given frames: as many as there are sections, whatever
follows, and up to the end. -/
def FramedAs (r : Revision) (sections : List SectionParts) (frames : List Frame) : Prop :=
  ∃ bytes : List UInt8, (∀ buffer : Buffer, (writeAll r sections).run buffer = .ok () (buffer ++ bytes)) ∧
    (∀ rest, (repeated (Frame.read r) sections.length).run (bytes ++ rest) = some (frames, rest)) ∧
    toEnd (Frame.read r) bytes = some frames

/-- Sections that fit are read back as their frames. -/
theorem framedAs {r : Revision} {sections : List SectionParts} (h : ∀ s ∈ sections, s.Fits r) :
    FramedAs r sections (sections.map (frame r)) := by
  have hfault : fault? (sections.mapM fun s => (s.frame r).write.toBytes) = none := by
    rw [fault?_mapM, List.findSome?_eq_none_iff]
    exact fun s hs => (h s hs).fault_write
  obtain ⟨parts, hparts⟩ := fault?_eq_none.1 hfault
  obtain ⟨hread, hend⟩ := Frame.reads_frames (fun s : SectionParts => Frame.readBy_write r s.id s.name s.payload) hparts
  have hbytes : (writeAll r sections).toBytes = .ok parts.flatten :=
    (WriteM.toBytes_forM sections).trans (EncodeError.map_eq_ok.2 ⟨parts, hparts, rfl⟩)
  exact ⟨parts.flatten, WriteM.run_of_toBytes hbytes, hread, hend⟩

end SectionParts

open SectionParts

/-- Sections that fit are framed one after another, and what was in the buffer stays. A reader of frames takes exactly the bytes that were
added, and gives for each section under revision 0xB its name and payload, and under revision 0xC its number and payload, with the name
in place of the number for a custom section. A name that is not ASCII is refused, with nothing written, wherever names are written; under
revision 0xC the name of a section that is not custom makes no difference. -/
theorem framing_roundTrip :
    (∀ sections : List SectionParts, (∀ s ∈ sections, s.Fits .v11) →
        FramedAs .v11 sections (sections.map fun s => .named s.name s.payload)) ∧
      (∀ sections : List SectionParts, (∀ s ∈ sections, s.Fits .v12) →
        FramedAs .v12 sections (sections.map fun s => if s.id = 0 then .custom s.name s.payload else .numbered s.id s.payload)) ∧
      (∀ (s : SectionParts) (buffer : Buffer), isAscii s.name = false →
        (s.write .v11).run buffer = .error (.nonAscii s.name) buffer ∧
        (s.id = 0 → (s.write .v12).run buffer = .error (.nonAscii s.name) buffer)) ∧
      ∀ (s : SectionParts) (name : String), s.id ≠ 0 → ({ s with name } : SectionParts).write .v12 = s.write .v12 := by
  refine ⟨fun sections h => framedAs h, fun sections h => framedAs h, fun s buffer h => ⟨?_, fun hid => ?_⟩, fun s name hid => ?_⟩
  · exact run_write_of_not_ascii (.inl rfl) h buffer
  · exact run_write_of_not_ascii (.inr hid) h buffer
  · have hhidden : ¬s.ShowsName .v12 := by simpa [ShowsName, customId] using hid
    rw [write, write, frame_withName hhidden]

namespace SectionParts

/-- A custom section whose name has a length of two bytes, and whose payload could be a frame. -/
def longNamed : SectionParts := ⟨0, String.ofList (List.replicate 200 'n'), [7, 1, 0]⟩

/-- A section whose name is not ASCII. -/
def accented : SectionParts := ⟨7, "é", [0, 1, 0]⟩

/-- The length of a custom section covers its name and the length of the name. -/
theorem contentLength_frame_custom {s : SectionParts} (h : s.id = customId) :
    (s.frame .v12).contentLength = s.payload.length + ((Leb128.unsigned s.name.length).length + s.name.length) := by
  rw [frame, Frame.of, if_pos h, Frame.contentLength]

theorem fits_longNamed (r : Revision) : longNamed.Fits r := by
  have hascii : ∀ n, isAscii (String.ofList (List.replicate n 'n')) = true := by
    intro n
    simp [isAscii]
  have hlength : ∀ n, (String.ofList (List.replicate n 'n')).length = n := by
    intro n
    simp
  have hname : longNamed.name.length = 200 := hlength 200
  refine ⟨fun _ => ⟨hascii 200, by omega⟩, ?_⟩
  cases r with
  | v11 => decide
  | v12 =>
    rw [contentLength_frame_custom rfl, hname]
    decide +kernel

end SectionParts

/-- The name that is not ASCII is in the way under revision 0xB, and in a custom section under revision 0xC. -/
theorem framing_roundTrip_accented :
    ((∀ s ∈ [longNamed, { accented with name := "e" }], s.Fits .v11) ∧
        FramedAs .v11 [longNamed, { accented with name := "e" }] [.named longNamed.name [7, 1, 0], .named "e" [0, 1, 0]]) ∧
      ((∀ s ∈ [longNamed, accented], s.Fits .v12) ∧
        FramedAs .v12 [longNamed, accented] [.custom longNamed.name [7, 1, 0], .numbered 7 [0, 1, 0]]) ∧
      (isAscii accented.name = false ∧ (accented.write .v11).run #[9] = .error (.nonAscii "é") #[9] ∧
        (({ accented with id := 0 } : SectionParts).write .v12).run #[9] = .error (.nonAscii "é") #[9]) ∧
      accented.id ≠ 0 ∧ ({ accented with name := "e" } : SectionParts).write .v12 = accented.write .v12 := by
  obtain ⟨hold, hnew, hrefused, hignored⟩ := framing_roundTrip
  have hfitsOld : ∀ s ∈ [longNamed, { accented with name := "e" }], s.Fits .v11 :=
    List.forall_mem_cons.2 ⟨fits_longNamed .v11, by decide⟩
  have hfitsNew : ∀ s ∈ [longNamed, accented], s.Fits .v12 := List.forall_mem_cons.2 ⟨fits_longNamed .v12, by decide⟩
  have hname : isAscii accented.name = false := by decide
  have hid : accented.id ≠ 0 := by decide
  exact ⟨⟨hfitsOld, hold _ hfitsOld⟩, ⟨hfitsNew, hnew _ hfitsNew⟩,
    ⟨hname, (hrefused accented #[9] hname).1, (hrefused { accented with id := 0 } #[9] hname).2 rfl⟩, hid, hignored accented "e" hid⟩

end WasmBinary
