import WasmBinary.Proofs.Contents
import WasmBinary.Proofs.Leb128

/-!
# The data section

A data section is the number of its segments and the bytes of each (`Segment.bytes`), in whatever pieces the contents are written
(`dataInChunks_eq`), and is read back as the segments of the module. Under revision 0xC the offset stands as an unsigned number behind
the opcode of a constant, where a function body has a signed one. `Segment.initializer` is thus what the instruction encoder writes for
the offset only if the offset shows no sign and has less than 32 bits (`initializer_eq_bytes_iff`), and is read by the rules of
function bodies as another offset if it shows one (`reads_initializer`, `ofInt_asSigned_iff`).
-/

namespace WasmBinary

open ByteReader

variable {σ : Type}

/-! ## The bytes of a segment -/

namespace Segment

/-- The bytes of the initializer that gives the offset: the opcode of a constant, the offset, the end byte. -/
def initializer (s : Segment) : List UInt8 :=
  (Instr.i32Const 0).opcode :: (Leb128.unsigned s.offset.toNat ++ [endByte])

/-- The bytes before the length of the contents: the offset, or the number of the memory and an initializer. -/
def heading (s : Segment) : Revision → List UInt8
  | .v11 => Leb128.unsigned s.offset.toNat
  | .v12 => 0 :: s.initializer

/-- The bytes of a segment in a data section. -/
def bytes (r : Revision) (s : Segment) : List UInt8 :=
  s.heading r ++ (Leb128.unsigned s.data.length ++ s.data)

end Segment

namespace Section

/-- A segment is written as its heading, its length and its contents, in pieces of any size. -/
theorem toBytes_writeSegment (chunk : Nat) (r : Revision) (s : Segment) :
    (writeSegment chunk r s).toBytes = (fun length => s.heading r ++ (length ++ s.data)) <$> (WriteM.len s.data.length).toBytes := by
  have hcontents : (WriteM.len s.data.length >>= fun _ => WriteM.chunked chunk s.data).toBytes =
      (fun length => length ++ s.data) <$> (WriteM.len s.data.length).toBytes := by
    rw [WriteM.toBytes_seq, WriteM.toBytes_chunked]
    cases (WriteM.len s.data.length).toBytes <;> rfl
  cases r with
  | v11 =>
    show (WriteM.leb s.offset >>= fun _ => WriteM.len s.data.length >>= fun _ => WriteM.chunked chunk s.data).toBytes = _
    rw [WriteM.toBytes_seq, hcontents, WriteM.toBytes_leb]
    cases (WriteM.len s.data.length).toBytes <;> rfl
  | v12 =>
    show (WriteM.byte 0 >>= fun _ => WriteM.byte (Instr.i32Const 0).opcode >>= fun _ => WriteM.leb s.offset >>= fun _ =>
      WriteM.byte endByte >>= fun _ => WriteM.len s.data.length >>= fun _ => WriteM.chunked chunk s.data).toBytes = _
    simp only [WriteM.toBytes_seq, hcontents, WriteM.toBytes_leb, WriteM.toBytes_byte]
    cases (WriteM.len s.data.length).toBytes with
    | error e => rfl
    | ok length =>
      refine congrArg Except.ok ?_
      simp [Segment.heading, Segment.initializer]

/-- A segment is written exactly if the length of its contents fits in 32 bits. -/
theorem toBytes_writeSegment_eq_ok {chunk : Nat} {r : Revision} {s : Segment} {part : List UInt8} :
    (writeSegment chunk r s).toBytes = .ok part ↔ s.data.length < 0x100000000 ∧ part = s.bytes r := by
  rw [toBytes_writeSegment, EncodeError.map_eq_ok]
  constructor
  · rintro ⟨length, hlength, rfl⟩
    obtain ⟨hlt, rfl⟩ := WriteM.toBytes_len_eq_ok.1 hlength
    exact ⟨hlt, rfl⟩
  · rintro ⟨hlt, rfl⟩
    exact ⟨_, WriteM.toBytes_len_eq_ok.2 ⟨hlt, rfl⟩, rfl⟩

/-! ## The bytes of a section -/

/-- The size of the pieces does not show in a data section, nor in whether it can be written. -/
theorem dataInChunks_eq (chunk : Nat) (m : Module) (r : Revision) : dataInChunks chunk m r = data m r := by
  have hitems : ∀ s, (writeSegment chunk r s).toBytes = (writeSegment dataChunk r s).toBytes := fun s => by
    rw [toBytes_writeSegment, toBytes_writeSegment]
  have hbytes : (WriteM.counted (writeSegment chunk r) m.segments).toBytes =
      (WriteM.counted (writeSegment dataChunk r) m.segments).toBytes := by
    unfold WriteM.counted
    simp only [WriteM.toBytes_seq, WriteM.toBytes_forM, hitems]
  unfold data dataInChunks ofWriter
  rw [hbytes]

/-- The bytes of a data section. -/
def dataBytes (segments : List Segment) (r : Revision) : List UInt8 :=
  Leb128.unsigned segments.length ++ segments.flatMap (Segment.bytes r)

/-- The number of the segments and the length of each fit in 32 bits. -/
def CountsFit (segments : List Segment) : Prop :=
  segments.length < 0x100000000 ∧ ∀ s ∈ segments, s.data.length < 0x100000000

/-- Segments are written as their bytes, exactly if their counts fit. -/
theorem toBytes_segments_eq_ok {chunk : Nat} {r : Revision} {segments : List Segment} {bytes : List UInt8} :
    (WriteM.counted (writeSegment chunk r) segments).toBytes = .ok bytes ↔
      CountsFit segments ∧ bytes = dataBytes segments r := by
  have hparts : ∀ parts, List.Forall₂ (fun s part => (writeSegment chunk r s).toBytes = .ok part) segments parts ↔
      (∀ s ∈ segments, s.data.length < 0x100000000) ∧ parts = segments.map (Segment.bytes r) := by
    intro parts
    simp only [toBytes_writeSegment_eq_ok, eq_comm (b := Segment.bytes r _)]
    rw [List.forall₂_and_left, ← List.forall₂_map_left_iff, List.forall₂_eq_eq_eq, eq_comm (a := parts)]
  rw [WriteM.toBytes_counted_eq_ok]
  constructor
  · rintro ⟨hcount, parts, hp, rfl⟩
    obtain ⟨hlengths, rfl⟩ := (hparts parts).1 hp
    exact ⟨⟨hcount, hlengths⟩, by rw [dataBytes, List.flatMap_def]⟩
  · rintro ⟨⟨hcount, hlengths⟩, rfl⟩
    exact ⟨hcount, _, (hparts _).2 ⟨hlengths, rfl⟩, by rw [dataBytes, List.flatMap_def]⟩

/-- A module with segments has a data section exactly if their counts fit, and its payload is the bytes of the segments. -/
theorem data_eq_ok {m : Module} (hne : m.segments ≠ []) {r : Revision} {o : Option Section} :
    data m r = .ok o ↔ CountsFit m.segments ∧ o = some ⟨.data, dataBytes m.segments r⟩ := by
  unfold data dataInChunks
  rw [if_neg (by simpa using hne), EncodeError.map_eq_ok]
  constructor
  · rintro ⟨s, hs, rfl⟩
    obtain ⟨bytes, hbytes, rfl⟩ := ofWriter_eq_ok.1 hs
    obtain ⟨hfit, rfl⟩ := toBytes_segments_eq_ok.1 hbytes
    exact ⟨hfit, rfl⟩
  · rintro ⟨hfit, rfl⟩
    exact ⟨_, ofWriter_eq_ok.2 ⟨_, toBytes_segments_eq_ok.2 ⟨hfit, rfl⟩, rfl⟩, rfl⟩

/-- The segments are read back from their bytes, and nothing is left over. -/
theorem whole_dataBytes {segments : List Segment} (h : CountsFit segments) (r : Revision) :
    (readSegments r).whole (dataBytes segments r) = some segments := by
  have hread := readBy_counted (readBy_writeSegment dataChunk r) segments
  rw [List.map_id'] at hread
  exact (hread _ (toBytes_segments_eq_ok.2 ⟨h, rfl⟩)).whole

end Section

/-- The data section of a module with segments is written alike in pieces of any size. It is written exactly if the number of the
segments and the length of each fit in 32 bits. Then it consists of these numbers, the offsets and the contents as they are, and is
read back to its last byte as the segments of the module, in order. -/
theorem data_roundTrip {m : Module} (hne : m.segments ≠ []) (r : Revision) :
    (∀ chunk, 0 < chunk → Section.dataInChunks chunk m r = Section.data m r) ∧
      ((∃ s, Section.data m r = .ok (some s)) ↔ Section.CountsFit m.segments) ∧
      ∀ o, Section.data m r = .ok o → ∃ s, o = some s ∧ s.kind = .data ∧
        s.payload = Section.dataBytes m.segments r ∧ (readSegments r).whole s.payload = some m.segments := by
  refine ⟨fun chunk _ => Section.dataInChunks_eq chunk m r, ?_, fun o ho => ?_⟩
  · constructor
    · rintro ⟨s, hs⟩
      exact ((Section.data_eq_ok hne).1 hs).1
    · intro hfit
      exact ⟨_, (Section.data_eq_ok hne).2 ⟨hfit, rfl⟩⟩
  · obtain ⟨hfit, rfl⟩ := (Section.data_eq_ok hne).1 ho
    exact ⟨_, rfl, rfl, rfl, Section.whole_dataBytes hfit r⟩

/-- A segment of one byte more than a piece, an empty one, and one whose contents look like the end of an initializer. -/
def Module.unevenSegments : Module :=
  { Module.empty with segments := [⟨1024, List.replicate 65537 0xab⟩, ⟨0, []⟩, ⟨0xffffffff, [0x0f, 0x00]⟩] }

/-- Such segments are read back, and come out the same in pieces of seven bytes. -/
theorem data_roundTrip_unevenSegments :
    Module.unevenSegments.segments ≠ [] ∧ ∃ s, Section.data .unevenSegments .v12 = .ok (some s) ∧
      Section.dataInChunks 7 .unevenSegments .v12 = .ok (some s) ∧
      (readSegments .v12).whole s.payload = some Module.unevenSegments.segments := by
  have hne : Module.unevenSegments.segments ≠ [] := List.cons_ne_nil _ _
  have hfit : Section.CountsFit Module.unevenSegments.segments := by
    refine ⟨by decide, List.forall_mem_cons.2 ⟨?_, by decide⟩⟩
    rw [List.length_replicate]
    decide
  obtain ⟨hchunks, hwritten, hread⟩ := data_roundTrip hne .v12
  obtain ⟨s, hs⟩ := hwritten.2 hfit
  obtain ⟨_, ho, -, -, hsegments⟩ := hread _ hs
  obtain rfl := Option.some.inj ho
  exact ⟨hne, s, hs, (hchunks 7 (by decide)).trans hs, hsegments⟩

/-! ## Initializers and constants -/

theorem toNat_ofInt (x : Int) : (UInt32.ofInt x).toNat = (x % 0x100000000).toNat := by
  have hlt : (x % 0x100000000).toNat < 0x100000000 := by omega
  exact UInt32.toNat_ofNat_of_lt' hlt

/-- The signed number of the bits of a 32-bit word. -/
theorem toInt_toInt32 (v : UInt32) :
    v.toInt32.toInt = if v.toNat < 0x80000000 then (v.toNat : Int) else (v.toNat : Int) - 0x100000000 := by
  have hcond := BitVec.toInt_eq_toNat_cond v.toBitVec
  show v.toBitVec.toInt = _
  rw [hcond]
  show (if 2 * v.toNat < 2 ^ 32 then (v.toNat : Int) else (v.toNat : Int) - (2 ^ 32 : Nat)) = _
  split <;> split <;> omega

/-- A 32-bit number is read back from its bytes with a sign exactly if it shows none. -/
theorem ofInt_asSigned_iff (v : UInt32) : UInt32.ofInt (Leb128.asSigned v.toNat) = v ↔ ¬Leb128.ShowsSign v.toNat := by
  have hv : v.toNat < 0x100000000 := v.toNat_lt
  rw [← UInt32.toNat_inj, toNat_ofInt]
  by_cases hs : Leb128.ShowsSign v.toNat
  · obtain ⟨hlt, hlow, hneg⟩ := Leb128.asSigned_bounds hv hs
    refine ⟨fun h => ?_, fun h => absurd hs h⟩
    omega
  · have hvalue : Leb128.asSigned v.toNat = v.toNat := if_neg hs
    refine ⟨fun _ => hs, fun _ => ?_⟩
    rw [hvalue]
    omega

/-- The offset that an initializer gives by the rules of function bodies: the constant is a signed number, taken modulo 2^32. -/
def ByteReader.initializer : ByteReader UInt32 := do
  expect (Instr.i32Const 0).opcode
  let v ← (Leb128.readSigned : ByteReader Int)
  expect endByte
  return UInt32.ofInt v

namespace Segment

/-- By the rules of function bodies, an initializer gives the offset as its bytes are read with a sign. -/
theorem reads_initializer (s : Segment) :
    Reads ByteReader.initializer s.initializer (UInt32.ofInt (Leb128.asSigned s.offset.toNat)) := by
  have hread : Reads (Leb128.readSigned : ByteReader Int) (Leb128.unsigned s.offset.toNat) (Leb128.asSigned s.offset.toNat) :=
    fun rest => Leb128.readSigned_unsigned s.offset.toNat rest
  exact (reads_expect _).bind (hread.bind ((reads_expect endByte).map fun _ => UInt32.ofInt _))

/-- The initializer is a constant instruction for the offset, followed by the end byte, exactly if the offset shows no sign and its
highest bit is not set. -/
theorem initializer_eq_bytes_iff (s : Segment) :
    s.initializer = (Instr.i32Const s.offset.toInt32).bytes ++ [endByte] ↔
      s.offset.toNat < 0x80000000 ∧ ¬Leb128.ShowsSign s.offset.toNat := by
  have hbytes : s.initializer = (Instr.i32Const s.offset.toInt32).bytes ++ [endByte] ↔
      Leb128.unsigned s.offset.toNat = Leb128.signed s.offset.toInt32.toInt := by
    simp [initializer, Instr.bytes, Instr.opcode, Instr.immediates]
  rw [hbytes, toInt_toInt32]
  constructor
  · intro he
    have hvalue := Leb128.eq_asSigned_of_unsigned_eq_signed he
    by_cases hs : Leb128.ShowsSign s.offset.toNat
    · obtain ⟨hlt, -, hneg⟩ := Leb128.asSigned_bounds s.offset.toNat_lt hs
      rw [if_pos (by omega)] at hvalue
      omega
    · have hsame : Leb128.asSigned s.offset.toNat = s.offset.toNat := if_neg hs
      refine ⟨?_, hs⟩
      -- the constant of an offset with the highest bit set is negative, and no number without a sign is read as that
      by_contra hge
      rw [if_neg hge] at hvalue
      omega
  · rintro ⟨hlt, hs⟩
    rw [if_pos hlt]
    exact (Leb128.signed_natCast hs).symm

end Segment

/-- A constant is encoded as one instruction, whatever the tables. -/
theorem encode_i32Const (refs : References) (v : Int32) :
    (standardEncoder.encode refs (.i32Const v)).run () = .ok (Instr.i32Const v).bytes () := by
  refine EncodeError.run_lift_eq_ok.2 ⟨?_, rfl⟩
  show (Expr.write refs (.i32Const v)).toBytes = _
  rw [Expr.toBytes_write]
  exact congrArg Except.ok (List.append_nil _)

/-- In a module rendered under revision 0xC the initializer of each segment is the opcode of a constant, the offset as an unsigned
number, and the end byte. This is what the instruction encoder writes for the offset as a constant, followed by the end byte, only for
the offsets below 2^31 that show no sign. Read by the rules of function bodies it gives the offset only if the offset shows no sign,
that is, if the number of its bits is not 7, 14, 21 or 28. -/
theorem render_initializers {encoder : ExprEncoder σ} {names : Bool} {m : Module} {before after : RenderState σ} {bytes : List UInt8}
    (h : (encoder.render ⟨.v12, names⟩ m).run before = .ok bytes after) :
    ∃ b, Binary.ofBytes? bytes = some b ∧
      b.payload? .data = (if m.segments.isEmpty then none else
        some (Leb128.unsigned m.segments.length ++ m.segments.flatMap fun s =>
          0 :: (s.initializer ++ (Leb128.unsigned s.data.length ++ s.data)))) ∧
      ∀ s ∈ m.segments,
        (∀ refs, ∃ code, (standardEncoder.encode refs (.i32Const s.offset.toInt32)).run () = .ok code () ∧
          (s.initializer = code ++ [endByte] ↔ s.offset.toNat < 0x80000000 ∧ ¬Leb128.ShowsSign s.offset.toNat)) ∧
        ∃ offset, ByteReader.initializer.whole s.initializer = some offset ∧
          (offset = s.offset ↔ ¬Leb128.ShowsSign s.offset.toNat) := by
  obtain ⟨n, log, t, -, -, hmade, hbytes⟩ := ExprEncoder.exists_slots_of_render h
  refine ⟨t.binary .v12, hbytes, ?_, fun s _ => ⟨fun refs => ?_, ?_⟩⟩
  · have hpayload : (t.binary .v12).payload? .data = t.data.map Section.payload :=
      hmade.payload?_eq .v12 .data
    have hdata : Section.data m .v12 = .ok t.data := hmade.data
    rw [hpayload]
    by_cases hne : m.segments = []
    · have hnone : none = t.data := by
        rw [Section.data, Section.dataInChunks, if_pos (by simpa using hne)] at hdata
        exact Except.ok.inj hdata
      rw [if_pos (by simpa using hne), ← hnone]
      rfl
    · obtain ⟨-, hsome⟩ := (Section.data_eq_ok hne).1 hdata
      rw [if_neg (by simpa using hne), hsome]
      rfl
  · exact ⟨_, encode_i32Const refs _, s.initializer_eq_bytes_iff⟩
  · exact ⟨_, s.reads_initializer.whole, ofInt_asSigned_iff s.offset⟩

/-- A module with one segment, which is empty. -/
def Module.segmentAt (offset : UInt32) : Module :=
  { Module.empty with segments := [⟨offset, []⟩] }

/-- The offset 64 is not written as the constant 64, and by the rules of function bodies it is read as another offset. -/
theorem render_initializers_sixtyFour :
    ∃ bytes after b, (standardEncoder.render ⟨.v12, false⟩ (Module.segmentAt 64)).run ⟨(), []⟩ = .ok bytes after ∧
      Binary.ofBytes? bytes = some b ∧ b.payload? .data = some ([1, 0] ++ [0x10, 0x40, 0x0f] ++ [0]) ∧
      (∀ refs, ∃ code, (standardEncoder.encode refs (.i32Const 64)).run () = .ok code () ∧ [0x10, 0x40, 0x0f] ≠ code ++ [endByte]) ∧
      ∃ offset, ByteReader.initializer.whole [0x10, 0x40, 0x0f] = some offset ∧ offset ≠ 64 := by
  have hok : ((Module.segmentAt 64).render ⟨.v12, false⟩).isOk = true := by decide +kernel
  obtain ⟨bytes, hbytes⟩ := EncodeError.exists_of_isOk hok
  obtain ⟨after, hrun⟩ := Module.render_eq_ok.1 hbytes
  have hsign : Leb128.ShowsSign 64 := by decide +kernel
  have hinit : Segment.initializer ⟨64, []⟩ = [0x10, 0x40, 0x0f] := by decide +kernel
  obtain ⟨b, hb, hdata, hsegments⟩ := render_initializers hrun
  obtain ⟨hcode, offset, hoffset, hiff⟩ := hsegments ⟨64, []⟩ List.mem_cons_self
  rw [hinit] at hcode hoffset
  refine ⟨bytes, after, b, hrun, hb, ?_, fun refs => ?_, offset, hoffset, fun he => hiff.1 he hsign⟩
  · rw [hdata]
    decide +kernel
  · obtain ⟨code, hrefs, hcodeIff⟩ := hcode refs
    exact ⟨code, hrefs, fun he => (hcodeIff.1 he).2 hsign⟩

end WasmBinary
