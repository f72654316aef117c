import WasmBinary.Binary.Render
import WasmBinary.Proofs.Instructions

/-!
# Rendering without a state

The encoder that writes instructions keeps no state, and nothing that is written depends on the log. So with this encoder every
stage of rendering is a plain computation that gives a value or fails (`standardEncoder_body`, `sections_standardEncoder`), and
`Module.render` is the sequence of these stages: numbers, sections, frames (`render_eq`). With any other encoder the stages are the
same, and only the sections depend on its state (`ExprEncoder.exists_sections`).
-/

namespace WasmBinary

variable {α β σ : Type}

/-- A computation without a state stays what it is when it is used where there is one. -/
instance : LawfulMonadLift (Except EncodeError) (EStateM EncodeError σ) where
  monadLift_pure _ := rfl
  monadLift_bind x _ := by cases x <;> rfl

theorem liftM_mapM (f : α → Except EncodeError β) (items : List α) :
    (liftM (items.mapM f) : EStateM EncodeError σ (List β)) = items.mapM fun a => liftM (f a) := by
  induction items with
  | nil => rfl
  | cons a items ih =>
    rw [List.mapM_cons, List.mapM_cons, ← ih]
    simp only [liftM_bind, liftM_pure]

/-! ## The code section -/

namespace Numbering

/-- The bytes of a function's body, its expressions written as instructions. -/
def bodyBytes (n : Numbering) (f : Function) : Except EncodeError (List UInt8) := do
  let vars ← f.writeVars.toBytes
  let code ← f.body.mapM fun e => (e.write n.references).toBytes
  return vars ++ code.flatten ++ n.revision.bodyEnd

/-- A function's entry in the code section: the length of its body, then the body. -/
def bodyEntry (n : Numbering) (f : Function) : Except EncodeError (List UInt8) := do
  let body ← n.bodyBytes f
  let length ← (WriteM.len body.length).toBytes
  return length ++ body

/-- The code section, its expressions written as instructions. -/
def codeSection (n : Numbering) : Except EncodeError Section := do
  let count ← (WriteM.len n.defined.length).toBytes
  let bodies ← n.defined.mapM n.bodyEntry
  return ⟨.code, count ++ bodies.flatten⟩

end Numbering

theorem standardEncoder_body (n : Numbering) (f : Function) : standardEncoder.body n f = liftM (n.bodyBytes f) := by
  unfold Numbering.bodyBytes
  simp only [liftM_bind, liftM_pure, liftM_mapM]
  rfl

theorem code_standardEncoder (n : Numbering) : Section.code n standardEncoder = liftM n.codeSection := by
  have hentry : ∀ f, (do
      let body ← standardEncoder.body n f
      let length ← (WriteM.len body.length).toBytes
      return length ++ body) = (liftM (n.bodyEntry f) : EStateM EncodeError Unit (List UInt8)) := by
    intro f
    unfold Numbering.bodyEntry
    rw [standardEncoder_body]
    simp only [liftM_bind, liftM_pure]
  unfold Section.code Numbering.codeSection
  rw [funext hentry]
  simp only [liftM_bind, liftM_pure, liftM_mapM]

/-! ## All sections -/

/-- The name section, where names are written. -/
def Numbering.nameSection (n : Numbering) (settings : Settings) : Except EncodeError (Option Section) :=
  if settings.nameSection then some <$> Section.names n else pure none

/-- Every section of a module that is not left out, in file order, its expressions written as instructions. -/
def Module.plainSections (m : Module) (settings : Settings) (n : Numbering) : Except EncodeError (List Section) := do
  let types ← Section.types n
  let imports ← Section.imports n
  let functions ← Section.functions n
  let table ← Section.table m n
  let memory ← Section.memory m settings.revision
  let exports ← Section.exports m n
  let start ← Section.start m n
  let elements ← Section.elements m n
  let code ← n.codeSection
  let data ← Section.data m settings.revision
  let names ← n.nameSection settings
  return [some types, imports, some functions, table, some memory, exports, start, elements, some code, data,
    names].reduceOption

theorem sections_standardEncoder (m : Module) (settings : Settings) (n : Numbering) :
    m.sections settings n standardEncoder = liftM (m.plainSections settings n) := by
  unfold Module.sections Module.plainSections Numbering.nameSection
  rw [code_standardEncoder]
  cases settings.nameSection <;> simp [liftM_bind]

/-! ## The whole binary -/

/-- The value or the error that a computation ends with. -/
def outcome : EStateM.Result EncodeError σ α → Except EncodeError α
  | .ok a _ => .ok a
  | .error e _ => .error e

/-- Whatever the state, the computation ends with the given value or error. -/
def Yields (x : EStateM EncodeError σ α) (y : Except EncodeError α) : Prop :=
  ∀ s, outcome (x.run s) = y

theorem yields_pure (a : α) : Yields (pure a : EStateM EncodeError σ α) (.ok a) := fun _ => rfl

theorem yields_lift (x : Except EncodeError α) : Yields (liftM x : EStateM EncodeError σ α) x := by
  intro s
  cases x <;> rfl

/-- A sequence ends with what its parts end with. -/
theorem Yields.bind {x : EStateM EncodeError σ α} {y : Except EncodeError α} {f : α → EStateM EncodeError σ β}
    {g : α → Except EncodeError β} (hx : Yields x y) (hf : ∀ a, Yields (f a) (g a)) : Yields (x >>= f) (y >>= g) := by
  intro s
  rw [← hx s, EStateM.run_bind]
  cases x.run s with
  | ok a s' => exact hf a s'
  | error e s' => rfl

theorem Yields.mapM {f : α → EStateM EncodeError σ β} {g : α → Except EncodeError β} (h : ∀ a, Yields (f a) (g a))
    (items : List α) : Yields (items.mapM f) (items.mapM g) := by
  induction items with
  | nil => exact yields_pure []
  | cons a items ih =>
    rw [List.mapM_cons, List.mapM_cons]
    exact (h a).bind fun b => ih.bind fun bs => yields_pure (b :: bs)

/-- Adding a record to the log never fails. -/
theorem yields_log (record : LogRecord) : Yields (RenderM.logging (LogM.log record) : RenderM σ Unit) (.ok ()) :=
  fun _ => rfl

theorem run_logging_of_ok {x : LogM α} {s : RenderState σ} {a : α} {log : Log} (h : x.run s.log = .ok a log) :
    (RenderM.logging x).run s = .ok a { s with log := log } := by
  show RenderM.logging x s = _
  unfold RenderM.logging
  rw [h]

theorem run_logging_of_error {x : LogM α} {s : RenderState σ} {e : EncodeError} {log : Log} (h : x.run s.log = .error e log) :
    (RenderM.logging x).run s = .error e { s with log := log } := by
  show RenderM.logging x s = _
  unfold RenderM.logging
  rw [h]

theorem yields_encoding (x : Except EncodeError α) : Yields (RenderM.encoding (liftM x) : RenderM σ α) x := by
  intro s
  cases x <;> rfl

/-- The header of a binary: the number at its start, then that of the revision. -/
def Revision.header (r : Revision) : List UInt8 :=
  littleEndian32 magic ++ littleEndian32 r.tag

theorem Revision.toBytes_writeHeader (r : Revision) : r.writeHeader.toBytes = .ok r.header := by
  unfold Revision.writeHeader Revision.header WriteM.word32
  rw [WriteM.toBytes_seq, WriteM.toBytes_raw, WriteM.toBytes_raw]
  rfl

/-- The bytes of a module whose numbers are known: the header, then its sections in their frames. -/
def Module.bytes (m : Module) (settings : Settings) (n : Numbering) : Except EncodeError (List UInt8) := do
  let sections ← m.plainSections settings n
  let frames ← sections.mapM fun s => (s.frame settings.revision).write.toBytes
  return settings.revision.header ++ frames.flatten

/-- Framing the sections ends alike with and without their records in the log. -/
theorem yields_frames (r : Revision) (sections : List Section) :
    Yields (sections.mapM fun s => do
        RenderM.logging (LogM.log (.sectionWritten s.kind.name s.payload.length))
        (s.frame r).write.toBytes : RenderM σ (List (List UInt8)))
      (sections.mapM fun s => (s.frame r).write.toBytes) := by
  refine Yields.mapM (fun s => ?_) sections
  exact (yields_log _).bind fun _ => yields_lift (s.frame r).write.toBytes

theorem Module.render_eq_outcome (m : Module) (settings : Settings) :
    m.render settings = outcome ((standardEncoder.render settings m).run ⟨(), []⟩) := by
  unfold Module.render
  cases (standardEncoder.render settings m).run ⟨(), []⟩ <;> rfl

/-- A rendered module has its numbers first, and then its bytes. -/
theorem Module.render_eq (m : Module) (settings : Settings) :
    m.render settings = match (Numbering.resolve m settings.revision).run [] with
      | .ok n _ => m.bytes settings n
      | .error e _ => .error e := by
  have hbytes : ∀ n, Yields (do
      let sections ← RenderM.encoding (m.sections settings n standardEncoder)
      let header ← settings.revision.writeHeader.toBytes
      let frames ← sections.mapM fun s => do
        RenderM.logging (LogM.log (.sectionWritten s.kind.name s.payload.length))
        (s.frame settings.revision).write.toBytes
      let bytes := header ++ frames.flatten
      RenderM.logging (LogM.log (.rendered bytes.length))
      return bytes : RenderM Unit (List UInt8)) (m.bytes settings n) := by
    intro n
    rw [sections_standardEncoder, Revision.toBytes_writeHeader]
    refine (yields_encoding _).bind fun sections => (yields_frames settings.revision sections).bind fun frames => ?_
    exact (yields_log _).bind fun _ => yields_pure _
  rw [render_eq_outcome]
  unfold ExprEncoder.render
  rw [EStateM.run_bind]
  cases hresolve : (Numbering.resolve m settings.revision).run [] with
  | error e log =>
    rw [run_logging_of_error hresolve]
    rfl
  | ok n log =>
    rw [run_logging_of_ok hresolve]
    exact hbytes n ⟨(), log⟩

/-! ## Successful renderings -/

namespace RenderM

theorem run_logging_eq_ok {α : Type} {x : LogM α} {s s' : RenderState σ} {a : α} :
    (logging x).run s = .ok a s' ↔ ∃ log, x.run s.log = .ok a log ∧ s' = { s with log := log } := by
  cases h : x.run s.log with
  | ok b log =>
    rw [run_logging_of_ok h]
    constructor
    · intro he
      cases he
      exact ⟨log, rfl, rfl⟩
    · rintro ⟨log', he, rfl⟩
      cases he
      rfl
  | error e log =>
    rw [run_logging_of_error h]
    exact ⟨fun he => (nomatch he), fun ⟨_, he, _⟩ => (nomatch he)⟩

theorem run_encoding_eq_ok {α : Type} {x : EStateM EncodeError σ α} {s s' : RenderState σ} {a : α}
    (h : (encoding x).run s = .ok a s') : x.run s.encoder = .ok a s'.encoder := by
  replace h : encoding x s = .ok a s' := h
  unfold encoding at h
  split at h
  · rename_i hx
    cases h
    exact hx
  · nomatch h

/-- Framing sections gives the bytes of their frames and leaves the encoder alone. -/
theorem run_frames {r : Revision} {sections : List Section} {frames : List (List UInt8)} {s s' : RenderState σ}
    (h : (sections.mapM fun t => do
        logging (LogM.log (.sectionWritten t.kind.name t.payload.length))
        (t.frame r).write.toBytes : RenderM σ (List (List UInt8))).run s = .ok frames s') :
    (sections.mapM fun t => (t.frame r).write.toBytes) = .ok frames ∧ s'.encoder = s.encoder := by
  induction sections generalizing frames s s' with
  | nil =>
    cases h
    exact ⟨rfl, rfl⟩
  | cons t sections ih =>
    rw [List.mapM_cons] at h
    obtain ⟨bytes, s₁, hfirst, h₁⟩ := EncodeError.run_bind_eq_ok.1 h
    obtain ⟨rest, s₂, hrest, h₂⟩ := EncodeError.run_bind_eq_ok.1 h₁
    obtain ⟨_, s₃, hlog, hframe⟩ := EncodeError.run_bind_eq_ok.1 hfirst
    obtain ⟨log, -, rfl⟩ := run_logging_eq_ok.1 hlog
    obtain ⟨hbytes, rfl⟩ := EncodeError.run_lift_eq_ok.1 hframe
    obtain ⟨hframes, hencoder⟩ := ih hrest
    cases h₂
    rw [List.mapM_cons, hbytes, hframes]
    exact ⟨rfl, hencoder⟩

end RenderM

namespace ExprEncoder

/-- A successful rendering is the header and the framed sections of the module, made with the numbers of the module. -/
theorem exists_sections {encoder : ExprEncoder σ} {settings : Settings} {m : Module} {s s' : RenderState σ} {bytes : List UInt8}
    (h : (encoder.render settings m).run s = .ok bytes s') :
    ∃ n log sections frames, (Numbering.resolve m settings.revision).run s.log = .ok n log ∧
      (m.sections settings n encoder).run s.encoder = .ok sections s'.encoder ∧
      (sections.mapM fun t => (t.frame settings.revision).write.toBytes) = .ok frames ∧
      bytes = settings.revision.header ++ frames.flatten := by
  unfold render at h
  rw [Revision.toBytes_writeHeader] at h
  obtain ⟨n, s₁, hn, h⟩ := EncodeError.run_bind_eq_ok.1 h
  obtain ⟨sections, s₂, hsections, h⟩ := EncodeError.run_bind_eq_ok.1 h
  obtain ⟨header, s₃, hheader, h⟩ := EncodeError.run_bind_eq_ok.1 h
  obtain ⟨frames, s₄, hframes, h⟩ := EncodeError.run_bind_eq_ok.1 h
  obtain ⟨_, s₅, hlast, h⟩ := EncodeError.run_bind_eq_ok.1 h
  obtain ⟨log, hresolve, rfl⟩ := RenderM.run_logging_eq_ok.1 hn
  obtain ⟨hheader, rfl⟩ := EncodeError.run_lift_eq_ok.1 hheader
  obtain ⟨hframes, hencoder⟩ := RenderM.run_frames hframes
  obtain ⟨log', -, rfl⟩ := RenderM.run_logging_eq_ok.1 hlast
  have hmade := RenderM.run_encoding_eq_ok hsections
  cases hheader
  cases h
  rw [← hencoder] at hmade
  exact ⟨n, log, sections, frames, hresolve, hmade, hframes, rfl⟩

end ExprEncoder

/-- Rendering a module is rendering it with the encoder that writes instructions and an empty log. -/
theorem Module.render_eq_ok {m : Module} {settings : Settings} {bytes : List UInt8} :
    m.render settings = .ok bytes ↔ ∃ s', (standardEncoder.render settings m).run ⟨(), []⟩ = .ok bytes s' := by
  unfold render
  cases (standardEncoder.render settings m).run ⟨(), []⟩ with
  | ok b s => exact ⟨fun h => ⟨s, by cases h; rfl⟩, fun ⟨_, h⟩ => by cases h; rfl⟩
  | error e s => exact ⟨fun h => (nomatch h), fun ⟨_, h⟩ => (nomatch h)⟩

end WasmBinary
