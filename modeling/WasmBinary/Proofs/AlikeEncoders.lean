import WasmBinary.Proofs.Rendering

/-!
# Encoders that do alike

Rendering knows an encoder only by its calls. Say that states of two encoders are related, and that at every call the encoders, in
related states, give the same bytes or the same error and are left in related states again. Then renderings with the one and with the
other give the same binary or the same error, leave the same log, and leave the encoders in related states (`ExprEncoder.alike_render`).

On the way, rendering is cut where the encoder comes in: what is done before the code section (`Module.sectionsBeforeCode`), the code
section, what is done after it (`Module.sectionsAfterCode`, `RenderM.finish`).
-/

namespace WasmBinary

variable {α β σ τ : Type}

/-- The state that a computation ends in, whether or not it fails. -/
def finalState : EStateM.Result EncodeError σ α → σ
  | .ok _ s => s
  | .error _ s => s

/-- A computation is known by what it ends with and where. -/
theorem eq_ok_iff {r : EStateM.Result EncodeError σ α} {a : α} {s : σ} :
    r = .ok a s ↔ outcome r = .ok a ∧ finalState r = s := by
  cases r with
  | ok b t => simp [outcome, finalState]
  | error e t => simp [outcome]

theorem eq_error_iff {r : EStateM.Result EncodeError σ α} {e : EncodeError} {s : σ} :
    r = .error e s ↔ outcome r = .error e ∧ finalState r = s := by
  cases r with
  | ok b t => simp [outcome]
  | error e' t => simp [outcome, finalState]

/-- From related states, two computations end with the same value or error, in related states. -/
def Alike (R : σ → τ → Prop) (x : EStateM EncodeError σ α) (y : EStateM EncodeError τ α) : Prop :=
  ∀ s t, R s t → outcome (x.run s) = outcome (y.run t) ∧ R (finalState (x.run s)) (finalState (y.run t))

variable {R : σ → τ → Prop}

theorem alike_pure (a : α) : Alike R (pure a) (pure a) :=
  fun _ _ h => ⟨rfl, h⟩

theorem alike_lift (x : Except EncodeError α) : Alike R (liftM x) (liftM x) := by
  intro s t h
  cases x with
  | ok a => exact ⟨rfl, h⟩
  | error e => exact ⟨rfl, h⟩

/-- Sequences are alike if their parts are. -/
theorem Alike.bind {x : EStateM EncodeError σ α} {y : EStateM EncodeError τ α} {f : α → EStateM EncodeError σ β}
    {g : α → EStateM EncodeError τ β} (hx : Alike R x y) (hf : ∀ a, Alike R (f a) (g a)) : Alike R (x >>= f) (y >>= g) := by
  intro s t h
  obtain ⟨houtcome, hstate⟩ := hx s t h
  rw [EStateM.run_bind, EStateM.run_bind]
  revert houtcome hstate
  rcases x.run s with ⟨a, s'⟩ | ⟨e, s'⟩ <;> rcases y.run t with ⟨b, t'⟩ | ⟨e', t'⟩ <;> intro houtcome hstate <;> cases houtcome
  · exact hf a s' t' hstate
  · exact ⟨rfl, hstate⟩

theorem Alike.mapM {f : α → EStateM EncodeError σ β} {g : α → EStateM EncodeError τ β} (h : ∀ a, Alike R (f a) (g a))
    (items : List α) : Alike R (items.mapM f) (items.mapM g) := by
  induction items with
  | nil => exact alike_pure []
  | cons a items ih =>
    rw [List.mapM_cons, List.mapM_cons]
    exact (h a).bind fun b => ih.bind fun bs => alike_pure (b :: bs)

/-! ## Renderings -/

/-- The states of the encoders are related, and the logs are the same. -/
def RenderState.Related (R : σ → τ → Prop) (s : RenderState σ) (t : RenderState τ) : Prop :=
  R s.encoder t.encoder ∧ s.log = t.log

theorem alike_logging (x : LogM α) : Alike (RenderState.Related R) (RenderM.logging x) (RenderM.logging x) := by
  rintro s t ⟨hencoder, hlog⟩
  cases hx : x.run s.log with
  | ok a log =>
    rw [run_logging_of_ok hx, run_logging_of_ok (hlog ▸ hx)]
    exact ⟨rfl, hencoder, rfl⟩
  | error e log =>
    rw [run_logging_of_error hx, run_logging_of_error (hlog ▸ hx)]
    exact ⟨rfl, hencoder, rfl⟩

namespace RenderM

/-- What running a computation on the state of the encoder ends with. -/
theorem outcome_encoding (x : EStateM EncodeError σ α) (s : RenderState σ) :
    outcome ((encoding x).run s) = outcome (x.run s.encoder) := by
  show outcome (encoding x s) = _
  unfold encoding
  cases x.run s.encoder <;> rfl

/-- Where running a computation on the state of the encoder ends: the log is left alone. -/
theorem finalState_encoding (x : EStateM EncodeError σ α) (s : RenderState σ) :
    finalState ((encoding x).run s) = { s with encoder := finalState (x.run s.encoder) } := by
  show finalState (encoding x s) = _
  unfold encoding
  cases x.run s.encoder <;> rfl

end RenderM

theorem Alike.encoding {x : EStateM EncodeError σ α} {y : EStateM EncodeError τ α} (h : Alike R x y) :
    Alike (RenderState.Related R) (RenderM.encoding x) (RenderM.encoding y) := by
  rintro s t ⟨hencoder, hlog⟩
  obtain ⟨houtcome, hstate⟩ := h _ _ hencoder
  rw [RenderM.outcome_encoding, RenderM.outcome_encoding, RenderM.finalState_encoding, RenderM.finalState_encoding]
  exact ⟨houtcome, hstate, hlog⟩

/-- The last part of rendering: the header, and the sections in their frames. -/
def RenderM.finish (settings : Settings) (sections : List Section) : RenderM σ (List UInt8) := do
  let header ← settings.revision.writeHeader.toBytes
  let frames ← sections.mapM fun s => do
    RenderM.logging (LogM.log (.sectionWritten s.kind.name s.payload.length))
    (s.frame settings.revision).write.toBytes
  let bytes := header ++ frames.flatten
  RenderM.logging (LogM.log (.rendered bytes.length))
  return bytes

/-- The last part of rendering does not ask the encoder for anything. -/
theorem alike_finish (settings : Settings) (sections : List Section) :
    Alike (RenderState.Related R) (RenderM.finish settings sections) (RenderM.finish settings sections) := by
  unfold RenderM.finish
  refine (alike_lift _).bind fun header => (Alike.mapM (fun s => ?_) sections).bind fun frames => ?_
  · exact (alike_logging _).bind fun _ => alike_lift _
  · exact (alike_logging _).bind fun _ => alike_pure _

namespace RenderM

variable {settings : Settings} {x : EStateM EncodeError σ (List Section)} {s : RenderState σ}

/-- So the encoder ends in the state in which the sections leave it. -/
theorem encoder_finalState_finish : (finalState ((encoding x >>= finish settings).run s)).encoder = finalState (x.run s.encoder) := by
  have hencoding := finalState_encoding x s
  rw [EStateM.run_bind]
  revert hencoding
  rcases (encoding x).run s with ⟨sections, s₁⟩ | ⟨e, s₁⟩
  · intro hs
    -- related are states in which both encoders are in the state that the sections left
    have hfinish := alike_finish (R := fun a b => a = s₁.encoder ∧ b = s₁.encoder) settings sections s₁ s₁ ⟨⟨rfl, rfl⟩, rfl⟩
    exact hfinish.2.1.1.trans (congrArg RenderState.encoder hs)
  · intro hs
    exact congrArg RenderState.encoder hs

/-- Where the sections fail, so does the rendering. -/
theorem outcome_finish_of_error {e : EncodeError} (h : outcome (x.run s.encoder) = .error e) :
    outcome ((encoding x >>= finish settings).run s) = .error e := by
  rw [← outcome_encoding] at h
  rw [EStateM.run_bind]
  revert h
  rcases (encoding x).run s with ⟨sections, s₁⟩ | ⟨e', s₁⟩
  · intro h
    nomatch h
  · intro h
    cases h
    rfl

end RenderM

theorem ExprEncoder.render_eq (encoder : ExprEncoder σ) (settings : Settings) (m : Module) :
    encoder.render settings m = (do
      let n ← RenderM.logging (Numbering.resolve m settings.revision)
      let sections ← RenderM.encoding (m.sections settings n encoder)
      RenderM.finish settings sections) :=
  rfl

theorem ExprEncoder.run_render_of_resolve {encoder : ExprEncoder σ} {settings : Settings} {m : Module} {s : RenderState σ}
    {n : Numbering} {log : Log} (h : (Numbering.resolve m settings.revision).run s.log = .ok n log) :
    (encoder.render settings m).run s =
      (RenderM.encoding (m.sections settings n encoder) >>= RenderM.finish settings).run { s with log := log } := by
  rw [render_eq, EStateM.run_bind, run_logging_of_ok h]

theorem ExprEncoder.run_render_of_resolve_error {encoder : ExprEncoder σ} {settings : Settings} {m : Module} {s : RenderState σ}
    {e : EncodeError} {log : Log} (h : (Numbering.resolve m settings.revision).run s.log = .error e log) :
    (encoder.render settings m).run s = .error e { s with log := log } := by
  rw [render_eq, EStateM.run_bind, run_logging_of_error h]

/-! ## Sections before and after the code -/

namespace Module

/-- The sections that come before the code section. -/
def sectionsBeforeCode (m : Module) (settings : Settings) (n : Numbering) : Except EncodeError (List (Option Section)) := do
  let types ← Section.types n
  let imports ← Section.imports n
  let functions ← Section.functions n
  let table ← Section.table m n
  let memory ← Section.memory m settings.revision
  let exports ← Section.exports m n
  let start ← Section.start m n
  let elements ← Section.elements m n
  return [some types, imports, some functions, table, some memory, exports, start, elements]

/-- The sections that come after the code section. -/
def sectionsAfterCode (m : Module) (settings : Settings) (n : Numbering) : Except EncodeError (List (Option Section)) := do
  let data ← Section.data m settings.revision
  let names ← n.nameSection settings
  return [data, names]

/-- Only the code section needs the encoder. -/
theorem sections_eq (m : Module) (settings : Settings) (n : Numbering) (encoder : ExprEncoder σ) :
    m.sections settings n encoder = (do
      let before ← liftM (m.sectionsBeforeCode settings n)
      let code ← Section.code n encoder
      let after ← liftM (m.sectionsAfterCode settings n)
      return (before ++ some code :: after).reduceOption) := by
  unfold sections sectionsBeforeCode sectionsAfterCode Numbering.nameSection
  cases settings.nameSection <;> simp [liftM_bind]

variable {m : Module} {settings : Settings} {n : Numbering} {encoder : ExprEncoder σ} {s t : σ} {e : EncodeError}

/-- Where a section before the code fails, the encoder is left alone. -/
theorem run_sections_of_before_error (h : m.sectionsBeforeCode settings n = .error e) :
    (m.sections settings n encoder).run s = .error e s := by
  rw [sections_eq, h]
  rfl

/-- Where the code section fails, so do the sections. -/
theorem run_sections_of_code_error {before : List (Option Section)} (h : m.sectionsBeforeCode settings n = .ok before)
    (hcode : (Section.code n encoder).run s = .error e t) : (m.sections settings n encoder).run s = .error e t := by
  rw [sections_eq, h]
  exact EncodeError.run_lift_bind_eq_error.2 (.inr ⟨before, rfl, EncodeError.run_bind_eq_error.2 (.inl hcode)⟩)

/-- What comes after the code section leaves the encoder alone. -/
theorem finalState_sections {before : List (Option Section)} {code : Section} (h : m.sectionsBeforeCode settings n = .ok before)
    (hcode : (Section.code n encoder).run s = .ok code t) : finalState ((m.sections settings n encoder).run s) = t := by
  rw [sections_eq, h]
  show finalState ((Section.code n encoder >>= _).run s) = t
  rw [EStateM.run_bind, hcode]
  cases m.sectionsAfterCode settings n <;> rfl

end Module

/-! ## Whole renderings -/

namespace ExprEncoder

variable {a : ExprEncoder σ} {b : ExprEncoder τ}

theorem alike_code (h : ∀ refs e, Alike R (a.encode refs e) (b.encode refs e)) (n : Numbering) :
    Alike R (Section.code n a) (Section.code n b) := by
  unfold Section.code body
  refine (alike_lift _).bind fun count => (Alike.mapM (fun f => ?_) n.defined).bind fun bodies => alike_pure _
  refine Alike.bind ?_ fun body => (alike_lift _).bind fun length => alike_pure _
  exact (alike_lift _).bind fun vars => (Alike.mapM (h n.references) f.body).bind fun code => alike_pure _

/-- Renderings with encoders that do alike at every call are alike. -/
theorem alike_render (h : ∀ refs e, Alike R (a.encode refs e) (b.encode refs e)) (settings : Settings) (m : Module) :
    Alike (RenderState.Related R) (a.render settings m) (b.render settings m) := by
  rw [render_eq, render_eq]
  refine (alike_logging _).bind fun n => Alike.bind ?_ (alike_finish settings)
  rw [Module.sections_eq, Module.sections_eq]
  refine Alike.encoding ((alike_lift _).bind fun before => (alike_code h n).bind fun code => ?_)
  exact (alike_lift _).bind fun after => alike_pure _

end ExprEncoder

end WasmBinary
