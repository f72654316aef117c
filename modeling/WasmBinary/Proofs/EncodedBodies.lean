import WasmBinary.Proofs.Contents

/-!
# Bodies made by an encoder

The body of a function is the runs of its locals (`Function.head`), what the encoder gives for each of its expressions, and the end
byte where there is one (`ExprEncoder.run_body_eq_ok`). Apart from the encoder, it can only fail because a number does not fit in 32
bits: the number of runs, before the encoder is called, and the length of the body, after that (`ExprEncoder.run_bodyEntry_eq_error`).
-/

namespace WasmBinary

open ByteReader

variable {σ : Type}

/-! ## The head of a body -/

/-- The bytes of a run of locals: its length in 32 bits, then its type. -/
def LocalRun.bytes (run : LocalRun) : List UInt8 :=
  Leb128.unsigned run.count.toUInt32.toNat ++ [run.type.tag]

theorem LocalRun.toBytes_write (run : LocalRun) : run.write.toBytes = .ok run.bytes :=
  WriteM.toBytes_seq_eq_ok.2 ⟨_, _, WriteM.toBytes_leb _, WriteM.toBytes_type _, rfl⟩

namespace Function

/-- The runs of the locals that are not parameters. -/
def runs (f : Function) : List LocalRun :=
  LocalRun.ofTypes f.vars.toList

/-- The bytes at the head of a body: the number of the runs of locals, then the runs. -/
def head (f : Function) : List UInt8 :=
  Leb128.unsigned f.runs.length ++ f.runs.flatMap LocalRun.bytes

/-- The bytes of a body whose expressions are encoded: its head, what they are encoded as, and the end byte where there is one. -/
def assemble (f : Function) (r : Revision) (parts : List (List UInt8)) : List UInt8 :=
  f.head ++ (parts.flatten ++ r.bodyEnd)

/-- The runs are written after their number, and only that can fail. -/
theorem toBytes_writeVars (f : Function) :
    f.writeVars.toBytes = (fun count => count ++ f.runs.flatMap LocalRun.bytes) <$> (WriteM.len f.runs.length).toBytes := by
  have hruns : (f.runs.mapM fun run => run.write.toBytes) = .ok (f.runs.map LocalRun.bytes) := by
    rw [EncodeError.mapM_eq_ok, List.forall₂_map_right_iff]
    exact List.forall₂_same.2 fun run _ => run.toBytes_write
  have hwrite : (f.runs.forM LocalRun.write).toBytes = .ok (f.runs.flatMap LocalRun.bytes) := by
    rw [WriteM.toBytes_forM, hruns, List.flatMap_def]
    rfl
  show (WriteM.len f.runs.length >>= fun _ => f.runs.forM LocalRun.write).toBytes = _
  rw [WriteM.toBytes_seq, hwrite]
  cases (WriteM.len f.runs.length).toBytes <;> rfl

theorem toBytes_writeVars_eq_ok {f : Function} {vars : List UInt8} :
    f.writeVars.toBytes = .ok vars ↔ f.runs.length < 0x100000000 ∧ vars = f.head := by
  rw [toBytes_writeVars, EncodeError.map_eq_ok]
  constructor
  · rintro ⟨count, hcount, rfl⟩
    obtain ⟨hlt, rfl⟩ := WriteM.toBytes_len_eq_ok.1 hcount
    exact ⟨hlt, rfl⟩
  · rintro ⟨hlt, rfl⟩
    exact ⟨_, WriteM.toBytes_len_eq_ok.2 ⟨hlt, rfl⟩, rfl⟩

theorem toBytes_writeVars_eq_error {f : Function} {e : EncodeError} :
    f.writeVars.toBytes = .error e ↔ 0x100000000 ≤ f.runs.length ∧ e = .outOfRange "length" f.runs.length := by
  rw [toBytes_writeVars, ← WriteM.toBytes_len_eq_error]
  cases (WriteM.len f.runs.length).toBytes with
  | ok count => exact ⟨fun h => (nomatch h), fun h => (nomatch h)⟩
  | error e' => exact ⟨fun h => congrArg _ (Except.error.inj h), fun h => congrArg _ (Except.error.inj h)⟩

/-- A body is read back as the runs of its locals and what follows them. -/
theorem ofBytes?_head_append {f : Function} (h : f.runs.length < 0x100000000) (code : List UInt8) :
    BodyEntry.ofBytes? (f.head ++ code) = some ⟨f.storedRuns, code⟩ := by
  have hread : Reads (counted LocalRun.read) f.head f.storedRuns :=
    readBy_counted LocalRun.readBy_write _ _ (toBytes_writeVars_eq_ok.2 ⟨h, rfl⟩)
  unfold BodyEntry.ofBytes?
  rw [hread]
  rfl

end Function

/-! ## Bodies and their entries -/

namespace ExprEncoder

variable {encoder : ExprEncoder σ} {n : Numbering} {f : Function} {s s' : σ} {e : EncodeError}

/-- A body is its head, what the encoder gives for each expression, and the end byte where there is one. -/
theorem run_body_eq_ok {bytes : List UInt8} :
    (encoder.body n f).run s = .ok bytes s' ↔ f.runs.length < 0x100000000 ∧
      ∃ parts, (f.body.mapM (encoder.encode n.references)).run s = .ok parts s' ∧
        bytes = f.assemble n.revision parts := by
  unfold body
  rw [EncodeError.run_lift_bind_eq_ok]
  constructor
  · rintro ⟨vars, hvars, h⟩
    obtain ⟨hlt, rfl⟩ := Function.toBytes_writeVars_eq_ok.1 hvars
    obtain ⟨parts, s₁, hparts, h⟩ := EncodeError.run_bind_eq_ok.1 h
    cases h
    exact ⟨hlt, parts, hparts, List.append_assoc _ _ _⟩
  · rintro ⟨hlt, parts, hparts, rfl⟩
    refine ⟨_, Function.toBytes_writeVars_eq_ok.2 ⟨hlt, rfl⟩, EncodeError.run_bind_eq_ok.2 ⟨parts, s', hparts, ?_⟩⟩
    rw [Function.assemble, ← List.append_assoc]
    rfl

/-- A body fails if there are too many runs of locals, and then the encoder is not called, or if the encoder fails. -/
theorem run_body_eq_error :
    (encoder.body n f).run s = .error e s' ↔
      (0x100000000 ≤ f.runs.length ∧ e = .outOfRange "length" f.runs.length ∧ s' = s) ∨
        (f.runs.length < 0x100000000 ∧ (f.body.mapM (encoder.encode n.references)).run s = .error e s') := by
  unfold body
  rw [EncodeError.run_lift_bind_eq_error, Function.toBytes_writeVars_eq_error, and_assoc]
  refine or_congr_right ?_
  constructor
  · rintro ⟨vars, hvars, h⟩
    obtain ⟨hlt, rfl⟩ := Function.toBytes_writeVars_eq_ok.1 hvars
    rcases EncodeError.run_bind_eq_error.1 h with h | ⟨parts, s₁, -, h⟩
    · exact ⟨hlt, h⟩
    · nomatch h
  · rintro ⟨hlt, h⟩
    exact ⟨_, Function.toBytes_writeVars_eq_ok.2 ⟨hlt, rfl⟩, EncodeError.run_bind_eq_error.2 (.inl h)⟩

/-- The entry of a body fails if the body does, or if the body is too long. -/
theorem run_bodyEntry_eq_error :
    (encoder.bodyEntry n f).run s = .error e s' ↔ (encoder.body n f).run s = .error e s' ∨
      ∃ body, (encoder.body n f).run s = .ok body s' ∧ 0x100000000 ≤ body.length ∧ e = .outOfRange "length" body.length := by
  unfold bodyEntry
  rw [EncodeError.run_bind_eq_error]
  refine or_congr_right ?_
  constructor
  · rintro ⟨body, s₁, hbody, h⟩
    rcases EncodeError.run_lift_bind_eq_error.1 h with ⟨hlength, rfl⟩ | ⟨length, -, h⟩
    · exact ⟨body, hbody, WriteM.toBytes_len_eq_error.1 hlength⟩
    · nomatch h
  · rintro ⟨body, hbody, h⟩
    exact ⟨body, s', hbody, EncodeError.run_lift_bind_eq_error.2 (.inl ⟨WriteM.toBytes_len_eq_error.2 h, rfl⟩)⟩

end ExprEncoder

end WasmBinary
