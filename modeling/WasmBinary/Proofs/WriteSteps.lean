import WasmBinary.Proofs.GrowingReferences
import WasmBinary.Proofs.Reading

/-!
# Writing step by step

A step writes one value. It adds the bytes of the value to whatever is in the buffer, or fails and adds nothing (`WriteStep.adds_write`). A
sequence of steps, failed ones included, adds the bytes of the steps that succeed, in order (`WriteStep.run_mapM_perform`). To read them back
it is enough to know what kind of value comes next, and for bytes without a length how many there are (`WriteStep.Kind`): every value ends
where its bytes say so, whatever follows (`WriteStep.reads_bytes`).
-/

namespace WasmBinary

open ByteReader WriteM

/-- A step of writing, with the value that is written. -/
inductive WriteStep where
  | word32 (v : UInt32)
  | byte (v : UInt8)
  | leb (v : UInt32)
  | len (n : Nat)
  | sleb32 (v : Int32)
  | sleb64 (v : Int64)
  | f32 (x : F32)
  | f64 (x : F64)
  | ascii (text : String)
  | type (t : ValueType)
  | raw (bytes : List UInt8)
  deriving DecidableEq

namespace WriteStep

/-- Writes the value. -/
def write : WriteStep → WriteM Unit
  | word32 v => WriteM.word32 v
  | byte v => WriteM.byte v
  | leb v => WriteM.leb v
  | len n => WriteM.len n
  | sleb32 v => WriteM.sleb32 v
  | sleb64 v => WriteM.sleb64 v
  | f32 x => WriteM.f32 x
  | f64 x => WriteM.f64 x
  | ascii text => WriteM.ascii text
  | type t => WriteM.type t
  | raw bytes => WriteM.raw bytes

/-- The bytes of the value. -/
def bytes : WriteStep → List UInt8
  | word32 v => littleEndian32 v
  | byte v => [v]
  | leb v => Leb128.unsigned v.toNat
  | len n => Leb128.unsigned n
  | sleb32 v => Leb128.signed v.toInt
  | sleb64 v => Leb128.signed v.toInt
  | f32 x => littleEndian32 x.bits
  | f64 x => littleEndian64 x.bits
  | ascii text => Leb128.unsigned text.length ++ asciiBytes text
  | type t => [t.tag]
  | raw bytes => bytes

/-- Why the value cannot be written: a length, also that of a text, has to fit in 32 bits, and a text has to be ASCII. -/
def fault : WriteStep → Option EncodeError
  | len n => if n < 0x100000000 then none else some (.outOfRange "length" n)
  | ascii text =>
    if isAscii text then
      if text.length < 0x100000000 then none else some (.outOfRange "string length" text.length)
    else some (.nonAscii text)
  | _ => none

/-- How the step ends. -/
def result (s : WriteStep) : Except EncodeError Unit :=
  match s.fault with
  | none => .ok ()
  | some e => .error e

/-- What the step adds to the buffer. -/
def added (s : WriteStep) : List UInt8 :=
  match s.fault with
  | none => s.bytes
  | some _ => []

/-- Does the step, and goes on with the buffer that it leaves, also if it fails. -/
def perform (s : WriteStep) : StateM Buffer (Except EncodeError Unit) := fun buffer =>
  (outcome (s.write.run buffer), finalState (s.write.run buffer))

/-- The steps that do not fail. -/
def successful (steps : List WriteStep) : List WriteStep :=
  steps.filter fun s => s.fault.isNone

/-! ## What steps add -/

theorem result_of_none {s : WriteStep} (h : s.fault = none) : s.result = .ok () := by
  simp [result, h]

theorem result_of_some {s : WriteStep} {e : EncodeError} (h : s.fault = some e) : s.result = .error e := by
  simp [result, h]

theorem added_of_none {s : WriteStep} (h : s.fault = none) : s.added = s.bytes := by
  simp [added, h]

theorem added_of_some {s : WriteStep} {e : EncodeError} (h : s.fault = some e) : s.added = [] := by
  simp [added, h]

theorem fault_len_eq_none {n : Nat} : (len n).fault = none ↔ n < 0x100000000 := by
  simp [fault]

theorem fault_ascii_eq_none {text : String} : (ascii text).fault = none ↔ isAscii text = true ∧ text.length < 0x100000000 := by
  by_cases hascii : isAscii text = true <;> simp [fault, hascii]

instance appends_write (s : WriteStep) : s.write.Appends := by
  cases s with
  | len n => exact appends_len n
  | ascii text => exact appends_ascii text
  | byte v => exact appends_byte v
  | type t => exact appends_type t
  | _ => exact appends_raw _

/-- A value without a fault is written as its bytes. -/
theorem toBytes_write {s : WriteStep} (h : s.fault = none) : s.write.toBytes = .ok s.bytes := by
  cases s with
  | len n => exact toBytes_len_eq_ok.2 ⟨fault_len_eq_none.1 h, rfl⟩
  | ascii text =>
    obtain ⟨hascii, hlength⟩ := fault_ascii_eq_none.1 h
    exact toBytes_ascii_eq_ok.2 ⟨hascii, hlength, rfl⟩
  | byte v => exact toBytes_byte v
  | type t => exact toBytes_type t
  | _ => exact toBytes_raw _

/-- A value with a fault is refused, and nothing is written. -/
theorem run_write_of_fault {s : WriteStep} {e : EncodeError} (h : s.fault = some e) (buffer : Buffer) :
    s.write.run buffer = .error e buffer := by
  cases s with
  | len n =>
    by_cases hn : n < 0x100000000
    · simp [fault, hn] at h
    · simp only [fault, if_neg hn, Option.some.injEq] at h
      rw [← h]
      exact run_len_of_le (Nat.le_of_not_lt hn) buffer
  | ascii text =>
    by_cases hascii : isAscii text = true
    · by_cases hlength : text.length < 0x100000000
      · simp [fault, hascii, hlength] at h
      · simp only [fault, if_pos hascii, if_neg hlength, Option.some.injEq] at h
        rw [write, WriteM.ascii, if_pos hascii, narrow, if_neg hlength, ← h]
        rfl
    · simp only [fault, if_neg hascii, Option.some.injEq] at h
      rw [← h]
      exact run_ascii_of_not_ascii (Bool.eq_false_iff.2 hascii) buffer
  | _ => simp [fault] at h

/-- A step ends as its fault says, and adds the bytes of its value or nothing, whatever the buffer holds. -/
theorem adds_write (s : WriteStep) : Adds s.write s.result s.added := by
  cases h : s.fault with
  | none =>
    rw [result_of_none h, added_of_none h]
    exact adds_ok_iff.2 (toBytes_write h)
  | some e =>
    rw [result_of_some h, added_of_some h]
    intro buffer
    refine eq_error_iff.1 ?_
    rw [run_write_of_fault h]
    simp

theorem run_perform (s : WriteStep) (buffer : Buffer) : s.perform.run buffer = (s.result, buffer ++ s.added) := by
  obtain ⟨houtcome, hstate⟩ := s.adds_write buffer
  exact Prod.ext houtcome hstate

/-- Steps in a row end as each does by itself, and add what each adds by itself. -/
theorem run_mapM_perform (steps : List WriteStep) (buffer : Buffer) :
    (steps.mapM perform).run buffer = (steps.map result, buffer ++ steps.flatMap added) := by
  induction steps generalizing buffer with
  | nil =>
    have hbuffer : buffer = buffer ++ ([] : List UInt8) := by simp
    exact congrArg (Prod.mk []) hbuffer
  | cons s steps ih =>
    have hbuffer : buffer ++ s.added ++ steps.flatMap added = buffer ++ (s.added ++ steps.flatMap added) :=
      Array.toList_inj.mp (by simp)
    rw [run_mapM_cons, run_perform, ih, hbuffer, List.map_cons, List.flatMap_cons]

theorem fault_of_mem_successful {steps : List WriteStep} {s : WriteStep} (h : s ∈ successful steps) : s.fault = none := by
  simpa using (List.mem_filter.1 h).2

/-- Failed steps leave no trace in the buffer. -/
theorem flatMap_added (steps : List WriteStep) : steps.flatMap added = (successful steps).flatMap bytes := by
  unfold successful
  induction steps with
  | nil => rfl
  | cons s steps ih =>
    cases h : s.fault with
    | none => simp [h, ih, added_of_none h]
    | some e => simp [h, ih, added_of_some h]

/-- The steps that do not fail all end well when they are done alone, and leave the same buffer. -/
theorem run_mapM_perform_successful (steps : List WriteStep) (buffer : Buffer) :
    ((successful steps).mapM perform).run buffer = ((successful steps).map fun _ => .ok (), buffer ++ steps.flatMap added) := by
  have hresults : (successful steps).map result = (successful steps).map fun _ => .ok () :=
    List.map_congr_left fun s hs => result_of_none (fault_of_mem_successful hs)
  have hadded : (successful steps).flatMap added = steps.flatMap added := by
    rw [flatMap_added, flatMap_added]
    simp [successful]
  rw [run_mapM_perform, hresults, hadded]

/-! ## Reading back -/

/-- What has to be known of a value to read it: its kind, and the number of bytes if they have no length in front. -/
inductive Kind where
  | word32
  | byte
  | leb
  | len
  | sleb32
  | sleb64
  | f32
  | f64
  | ascii
  | type
  | raw (length : Nat)

/-- The kind of the value that a step writes. -/
def kind : WriteStep → Kind
  | word32 _ => .word32
  | byte _ => .byte
  | leb _ => .leb
  | len _ => .len
  | sleb32 _ => .sleb32
  | sleb64 _ => .sleb64
  | f32 _ => .f32
  | f64 _ => .f64
  | ascii _ => .ascii
  | type _ => .type
  | raw bytes => .raw bytes.length

/-- Reads a value of a kind. -/
def Kind.read : Kind → ByteReader WriteStep
  | word32 => do return .word32 (← ByteReader.word32)
  | byte => do return .byte (← ByteReader.byte)
  | leb => do return .leb (← ByteReader.leb)
  | len => do return .len (← ByteReader.leb).toNat
  | sleb32 => do return .sleb32 (← ByteReader.sleb32)
  | sleb64 => do return .sleb64 (← ByteReader.sleb64)
  | f32 => do return .f32 (← ByteReader.f32)
  | f64 => do return .f64 (← ByteReader.f64)
  | ascii => do return .ascii (← ByteReader.ascii)
  | type => do return .type (← ByteReader.type)
  | raw length => do return .raw (← ByteReader.take length)

/-- A value without a fault is read back from its bytes. -/
theorem reads_bytes {s : WriteStep} (h : s.fault = none) : Reads s.kind.read s.bytes s := by
  cases s with
  | word32 v => exact (reads_word32 v).map WriteStep.word32
  | byte v => exact (reads_byte v).map WriteStep.byte
  | leb v => exact (reads_leb v).map WriteStep.leb
  | len n =>
    have hn : n < 0x100000000 := fault_len_eq_none.1 h
    have hread := (reads_length hn).map fun v => WriteStep.len v.toNat
    rwa [UInt32.toNat_ofNat_of_lt' hn] at hread
  | sleb32 v => exact (reads_sleb32 v).map WriteStep.sleb32
  | sleb64 v => exact (reads_sleb64 v).map WriteStep.sleb64
  | f32 x => exact (reads_f32 x).map WriteStep.f32
  | f64 x => exact (reads_f64 x).map WriteStep.f64
  | ascii text => exact (reads_ascii (toBytes_write h)).map WriteStep.ascii
  | type t => exact (reads_type t).map WriteStep.type
  | raw bytes => exact (reads_take bytes).map WriteStep.raw

/-- Values without faults are read back one after another. -/
theorem reads_flatMap_bytes {steps : List WriteStep} (h : ∀ s ∈ steps, s.fault = none) :
    Reads ((steps.map kind).mapM Kind.read) (steps.flatMap bytes) steps := by
  induction steps with
  | nil => exact reads_pure []
  | cons s steps ih =>
    obtain ⟨hs, hsteps⟩ := List.forall_mem_cons.1 h
    rw [List.map_cons, List.mapM_cons, List.flatMap_cons]
    exact (reads_bytes hs).bind ((ih hsteps).map _)

end WriteStep

open WriteStep

/-- Steps are done one after another, and after a failed one the next is done all the same. Each step adds the bytes of its value to the
buffer, or it fails with its fault and adds nothing. So the buffer ends with what the steps added, in order, and without the failed steps it
would be the same. The values of the other steps are read back from what was added, in order, whatever bytes follow. -/
theorem writeSteps_roundTrip (steps : List WriteStep) (buffer : Buffer) :
    (steps.mapM perform).run buffer = (steps.map result, buffer ++ steps.flatMap added) ∧
      (∀ (s : WriteStep) (before : Buffer), s.perform.run before = (s.result, before ++ s.added) ∧
        (s.fault = none ∧ s.result = .ok () ∧ s.added = s.bytes ∨ ∃ e, s.fault = some e ∧ s.result = .error e ∧ s.added = [])) ∧
      ((successful steps).mapM perform).run buffer = ((successful steps).map fun _ => .ok (), buffer ++ steps.flatMap added) ∧
      (∀ rest, (((successful steps).map kind).mapM Kind.read).run (steps.flatMap added ++ rest) = some (successful steps, rest)) ∧
      (((successful steps).map kind).mapM Kind.read).whole ((steps.mapM perform).run #[]).2.toList = some (successful steps) := by
  have hsuccessful : ∀ s ∈ successful steps, s.fault = none := fun s hs => fault_of_mem_successful hs
  have hreads := reads_flatMap_bytes hsuccessful
  rw [← flatMap_added] at hreads
  refine ⟨run_mapM_perform steps buffer, fun s before => ⟨s.run_perform before, ?_⟩, run_mapM_perform_successful steps buffer, hreads, ?_⟩
  · cases h : s.fault with
    | none => exact .inl ⟨rfl, result_of_none h, added_of_none h⟩
    | some e => exact .inr ⟨e, rfl, result_of_some h, added_of_some h⟩
  · rw [run_mapM_perform]
    simpa using hreads.whole

end WasmBinary
