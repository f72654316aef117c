import WasmBinary.Proofs.AlikeEncoders
import WasmBinary.Proofs.EncodedBodies
import WasmBinary.Proofs.LocalRuns

/-!
# How a renderer calls its encoder

An encoder is called once for each expression at the top of the body of a defined function, in the module's order (`Module.calls`). To
see the calls of a rendering, it is repeated with the same encoder put into another that also keeps a record (`ExprEncoder.recording`);
the two do alike, so nothing but the record is added. The calls of a code section are all those of the module, or they stop early for
one of three reasons (`ExprEncoder.Stopped`). `renderings_protocol` is about any number of modules rendered in a row. That a call fails
is only one of the reasons: with an encoder that never fails, calls still stop early at a function that does not fit in 32 bits
(`calls_stop_without_failure`).
-/

namespace WasmBinary

variable {σ : Type}

/-! ## Calls -/

/-- A call of an encoder. -/
structure EncoderCall where
  /-- What the code may refer to. -/
  refs : References
  /-- The expression to encode. -/
  expr : Expr

/-- The calls for the body of a function: one for each expression, in order. -/
def Function.calls (refs : References) (f : Function) : List EncoderCall :=
  f.body.map (EncoderCall.mk refs)

/-- The calls for the bodies of functions, one function after the other. -/
def callsFor (refs : References) (fs : List Function) : List EncoderCall :=
  fs.flatMap (Function.calls refs)

/-- The calls for a module: those for the functions that it defines, in its order. -/
def Module.calls (m : Module) (refs : References) : List EncoderCall :=
  callsFor refs m.defined

namespace ExprEncoder

variable {encoder : ExprEncoder σ}

/-- What the encoder does at a call. -/
def answer (encoder : ExprEncoder σ) (c : EncoderCall) : EStateM EncodeError σ (List UInt8) :=
  encoder.encode c.refs c.expr

/-- The state that calls leave the encoder in, whether they fail or not. -/
def after (encoder : ExprEncoder σ) (s : σ) (calls : List EncoderCall) : σ :=
  calls.foldl (fun s c => finalState ((encoder.answer c).run s)) s

theorem after_append (s : σ) (calls calls' : List EncoderCall) :
    encoder.after s (calls ++ calls') = encoder.after (encoder.after s calls) calls' :=
  List.foldl_append

/-- From the state `s` on, no call fails. -/
def Answers (encoder : ExprEncoder σ) (s : σ) (calls : List EncoderCall) : Prop :=
  ∃ parts, (calls.mapM encoder.answer).run s = .ok parts (encoder.after s calls)

/-- What the encoder gives at the calls for the body of a function. -/
def parts (encoder : ExprEncoder σ) (refs : References) (f : Function) : EStateM EncodeError σ (List (List UInt8)) :=
  (f.calls refs).mapM encoder.answer

theorem parts_eq (refs : References) (f : Function) : encoder.parts refs f = f.body.mapM (encoder.encode refs) :=
  List.mapM_map

/-- Calls that succeed end in the state that calls leave the encoder in. -/
theorem after_of_run {calls : List EncoderCall} {s s' : σ} {parts : List (List UInt8)}
    (h : (calls.mapM encoder.answer).run s = .ok parts s') : encoder.after s calls = s' := by
  induction calls generalizing s parts with
  | nil =>
    cases h
    rfl
  | cons c calls ih =>
    obtain ⟨part, rest, s₁, hpart, hrest, rfl⟩ := EncodeError.run_mapM_cons_eq_ok.1 h
    show encoder.after (finalState ((encoder.answer c).run s)) calls = s'
    rw [hpart]
    exact ih hrest

theorem answers_of_run {calls : List EncoderCall} {s s' : σ} {parts : List (List UInt8)}
    (h : (calls.mapM encoder.answer).run s = .ok parts s') : encoder.Answers s calls :=
  ⟨parts, (after_of_run h).symm ▸ h⟩

theorem Answers.append {s : σ} {calls calls' : List EncoderCall} (h : encoder.Answers s calls)
    (h' : encoder.Answers (encoder.after s calls) calls') : encoder.Answers s (calls ++ calls') := by
  obtain ⟨parts, hparts⟩ := h
  obtain ⟨parts', hparts'⟩ := h'
  exact answers_of_run (EncodeError.run_mapM_append_eq_ok.2 ⟨parts, parts', _, hparts, hparts', rfl⟩)

/-- Among calls that do not fail there is no call that fails. -/
theorem Answers.not_error {s s' : σ} {calls done rest : List EncoderCall} {c : EncoderCall} {e : EncodeError}
    (h : encoder.Answers s calls) (hcalls : calls = done ++ c :: rest) :
    (encoder.answer c).run (encoder.after s done) ≠ .error e s' := by
  intro herror
  obtain ⟨parts, hparts⟩ := h
  rw [hcalls] at hparts
  obtain ⟨first, second, s₁, hdone, hrest, -⟩ := EncodeError.run_mapM_append_eq_ok.1 hparts
  obtain ⟨part, _, s₂, hpart, -, -⟩ := EncodeError.run_mapM_cons_eq_ok.1 hrest
  rw [after_of_run hdone, hpart] at herror
  nomatch herror

/-! ## Recording calls -/

/-- Does what a call does, and adds the call to a record, whether or not it fails. -/
def withRecord {α : Type} (c : EncoderCall) (x : EStateM EncodeError σ α) : EStateM EncodeError (σ × List EncoderCall) α := fun t =>
  match x.run t.1 with
  | .ok a s => .ok a (s, t.2 ++ [c])
  | .error e s => .error e (s, t.2 ++ [c])

theorem outcome_withRecord {α : Type} (c : EncoderCall) (x : EStateM EncodeError σ α) (t : σ × List EncoderCall) :
    outcome ((withRecord c x).run t) = outcome (x.run t.1) := by
  show outcome (withRecord c x t) = _
  unfold withRecord
  cases x.run t.1 <;> rfl

theorem finalState_withRecord {α : Type} (c : EncoderCall) (x : EStateM EncodeError σ α) (t : σ × List EncoderCall) :
    finalState ((withRecord c x).run t) = (finalState (x.run t.1), t.2 ++ [c]) := by
  show finalState (withRecord c x t) = _
  unfold withRecord
  cases x.run t.1 <;> rfl

/-- The encoder with a record of its calls. -/
def recording (encoder : ExprEncoder σ) : ExprEncoder (σ × List EncoderCall) where
  encode refs e := withRecord ⟨refs, e⟩ (encoder.encode refs e)

/-- The encoder is in the same state with the record as without, and that is the state that the calls on record leave it in. -/
def Recorded (encoder : ExprEncoder σ) (start s : σ) (t : σ × List EncoderCall) : Prop :=
  t.1 = s ∧ encoder.after start t.2 = s

/-- A call does the same with the record as without. -/
theorem alike_recording (encoder : ExprEncoder σ) (start : σ) (refs : References) (e : Expr) :
    Alike (encoder.Recorded start) (encoder.encode refs e) (encoder.recording.encode refs e) := by
  rintro s ⟨s', made⟩ ⟨rfl, hs⟩
  refine ⟨(outcome_withRecord _ _ _).symm, ?_⟩
  unfold Recorded recording
  rw [finalState_withRecord, after_append, hs]
  exact ⟨rfl, rfl⟩

/-- A call is added to the record. -/
theorem run_recording_eq_ok {c : EncoderCall} {s : σ} {made : List EncoderCall} {bytes : List UInt8} {t : σ × List EncoderCall}
    (h : (encoder.recording.answer c).run (s, made) = .ok bytes t) :
    ∃ s', (encoder.answer c).run s = .ok bytes s' ∧ t = (s', made ++ [c]) := by
  obtain ⟨houtcome, rfl⟩ := eq_ok_iff.1 h
  exact ⟨_, eq_ok_iff.2 ⟨(outcome_withRecord c _ _).symm.trans houtcome, rfl⟩, finalState_withRecord c _ _⟩

/-- A call that fails is added to it too. -/
theorem run_recording_eq_error {c : EncoderCall} {s : σ} {made : List EncoderCall} {e : EncodeError} {t : σ × List EncoderCall}
    (h : (encoder.recording.answer c).run (s, made) = .error e t) :
    ∃ s', (encoder.answer c).run s = .error e s' ∧ t = (s', made ++ [c]) := by
  obtain ⟨houtcome, rfl⟩ := eq_error_iff.1 h
  exact ⟨_, eq_error_iff.2 ⟨(outcome_withRecord c _ _).symm.trans houtcome, rfl⟩, finalState_withRecord c _ _⟩

/-- Calls that succeed are added to the record one by one. -/
theorem run_mapM_recording_eq_ok {calls : List EncoderCall} {s : σ} {made : List EncoderCall} {parts : List (List UInt8)}
    {t : σ × List EncoderCall} (h : (calls.mapM encoder.recording.answer).run (s, made) = .ok parts t) :
    (calls.mapM encoder.answer).run s = .ok parts (encoder.after s calls) ∧ t = (encoder.after s calls, made ++ calls) := by
  induction calls generalizing s made parts with
  | nil =>
    cases h
    exact ⟨rfl, by rw [List.append_nil]; rfl⟩
  | cons c calls ih =>
    obtain ⟨part, rest, t₁, hrecorded, hrest, rfl⟩ := EncodeError.run_mapM_cons_eq_ok.1 h
    obtain ⟨s₁, hpart, rfl⟩ := run_recording_eq_ok hrecorded
    obtain ⟨hrest, ht⟩ := ih hrest
    have hrun := EncodeError.run_mapM_cons_eq_ok.2 ⟨part, rest, s₁, hpart, hrest, rfl⟩
    rw [List.append_assoc] at ht
    rw [after_of_run hrun]
    exact ⟨hrun, ht⟩

/-! ## The calls of a code section -/

/-- Calls for functions that stop early: those that were made until then, and the error. -/
inductive Stopped (encoder : ExprEncoder σ) (n : Numbering) (fs : List Function) (s : σ) : List EncoderCall → EncodeError → Prop
  /-- A call fails. -/
  | call {done rest : List EncoderCall} {c : EncoderCall} {e : EncodeError} {s' : σ}
      (hcalls : callsFor n.references fs = done ++ c :: rest) (hdone : encoder.Answers s done)
      (hc : (encoder.answer c).run (encoder.after s done) = .error e s') : Stopped encoder n fs s (done ++ [c]) e
  /-- A function has more runs of locals than 32 bits can count. -/
  | runs {done rest : List Function} {f : Function} (hfs : fs = done ++ f :: rest)
      (hdone : encoder.Answers s (callsFor n.references done)) (hruns : 0x100000000 ≤ f.runs.length) :
      Stopped encoder n fs s (callsFor n.references done) (.outOfRange "length" f.runs.length)
  /-- The body of a function is longer than 32 bits can say. -/
  | length {done rest : List Function} {f : Function} {parts : List (List UInt8)} (hfs : fs = done ++ f :: rest)
      (hdone : encoder.Answers s (callsFor n.references done))
      (hparts : outcome ((encoder.parts n.references f).run (encoder.after s (callsFor n.references done))) = .ok parts)
      (hlength : 0x100000000 ≤ (f.assemble n.revision parts).length) :
      Stopped encoder n fs s (callsFor n.references done ++ f.calls n.references)
        (.outOfRange "length" (f.assemble n.revision parts).length)

variable {n : Numbering} {fs : List Function} {s : σ} {made : List EncoderCall} {e : EncodeError}

/-- The calls that were made are the first of all calls. -/
theorem Stopped.isPrefix (h : encoder.Stopped n fs s made e) : made <+: callsFor n.references fs := by
  cases h with
  | @call done rest c e s' hcalls hdone hc =>
    rw [hcalls]
    exact ⟨rest, by simp⟩
  | @runs done rest f hfs hdone hruns =>
    rw [hfs]
    exact ⟨callsFor n.references (f :: rest), by simp [callsFor]⟩
  | @length done rest f parts hfs hdone hparts hlength =>
    rw [hfs]
    exact ⟨callsFor n.references rest, by simp [callsFor]⟩

/-- A call that fails is the last one, and its error is the one that the calls stop with. -/
theorem Stopped.eq_last (h : encoder.Stopped n fs s made e) {done rest : List EncoderCall} {c : EncoderCall} {e' : EncodeError}
    {s' : σ} (hmade : made = done ++ c :: rest) (hc : (encoder.answer c).run (encoder.after s done) = .error e' s') :
    rest = [] ∧ e = e' := by
  cases h with
  | @call done₀ rest₀ c₀ e₀ s₀ hcalls hdone hc₀ =>
    rcases List.eq_nil_or_concat rest with rfl | ⟨rest', c', rfl⟩
    · obtain ⟨rfl, hlast⟩ := List.append_inj' hmade rfl
      obtain rfl := List.singleton_inj.1 hlast
      rw [hc₀] at hc
      cases hc
      exact ⟨rfl, rfl⟩
    · rw [List.concat_eq_append, ← List.cons_append, ← List.append_assoc] at hmade
      obtain ⟨hdone₀, -⟩ := List.append_inj' hmade rfl
      exact absurd hc (hdone.not_error hdone₀)
  | @runs done₀ rest₀ f hfs hdone hruns => exact absurd hc (hdone.not_error hmade)
  | @length done₀ rest₀ f parts hfs hdone hparts hlength =>
    have hcalls := answers_of_run (eq_ok_iff.2 ⟨hparts, rfl⟩)
    exact absurd hc ((hdone.append hcalls).not_error hmade)

/-- The entry of a body makes the calls for its function. -/
theorem run_bodyEntry_recording {f : Function} {entry : List UInt8} {t : σ × List EncoderCall}
    (h : (encoder.recording.bodyEntry n f).run (s, made) = .ok entry t) :
    encoder.Answers s (f.calls n.references) ∧ t = (encoder.after s (f.calls n.references), made ++ f.calls n.references) := by
  obtain ⟨body, t₁, hbody, h⟩ := EncodeError.run_bind_eq_ok.1 h
  obtain ⟨length, -, h⟩ := EncodeError.run_lift_bind_eq_ok.1 h
  cases h
  obtain ⟨-, parts, hrecorded, -⟩ := run_body_eq_ok.1 hbody
  rw [← parts_eq] at hrecorded
  obtain ⟨hparts, rfl⟩ := run_mapM_recording_eq_ok hrecorded
  exact ⟨⟨parts, hparts⟩, rfl⟩

/-- The entries of bodies make the calls for their functions. -/
theorem run_bodyEntries_recording {entries : List (List UInt8)} {t : σ × List EncoderCall}
    (h : (fs.mapM (encoder.recording.bodyEntry n)).run (s, made) = .ok entries t) :
    encoder.Answers s (callsFor n.references fs) ∧
      t = (encoder.after s (callsFor n.references fs), made ++ callsFor n.references fs) := by
  induction fs generalizing s made entries with
  | nil =>
    cases h
    exact ⟨⟨[], rfl⟩, by simp [callsFor, after]⟩
  | cons f fs ih =>
    obtain ⟨entry, rest, t₁, hentry, hrest, rfl⟩ := EncodeError.run_mapM_cons_eq_ok.1 h
    obtain ⟨hfirst, rfl⟩ := run_bodyEntry_recording hentry
    obtain ⟨hothers, rfl⟩ := ih hrest
    refine ⟨hfirst.append hothers, ?_⟩
    rw [List.append_assoc, ← after_append]
    rfl

/-- Where the entries of bodies fail, the calls for their functions stop. -/
theorem stopped_of_bodyEntries {t : σ × List EncoderCall}
    (h : (fs.mapM (encoder.recording.bodyEntry n)).run (s, []) = .error e t) : encoder.Stopped n fs s t.2 e := by
  obtain ⟨done, f, rest, entries, t₁, hfs, hentries, hf⟩ := EncodeError.run_mapM_eq_error.1 h
  obtain ⟨hdone, rfl⟩ := run_bodyEntries_recording hentries
  -- the functions before `f` are done; `f` fails before its first call, at a call, or after its last one
  rcases run_bodyEntry_eq_error.1 hf with hbody | ⟨body, hbody, hlength, rfl⟩
  · rcases run_body_eq_error.1 hbody with ⟨hruns, rfl, rfl⟩ | ⟨-, hcode⟩
    · exact .runs hfs hdone hruns
    · rw [← parts_eq] at hcode
      obtain ⟨calls, c, others, parts, t₂, hcalls, hrecorded, hc⟩ := EncodeError.run_mapM_eq_error.1 hcode
      obtain ⟨hparts, rfl⟩ := run_mapM_recording_eq_ok hrecorded
      obtain ⟨s', hfails, rfl⟩ := run_recording_eq_error hc
      have hall : callsFor n.references fs =
          (callsFor n.references done ++ calls) ++ c :: (others ++ callsFor n.references rest) := by
        simp [hfs, callsFor, hcalls]
      rw [← after_append] at hfails
      exact .call hall (hdone.append ⟨parts, hparts⟩) hfails
  · obtain ⟨-, parts, hrecorded, rfl⟩ := run_body_eq_ok.1 hbody
    rw [← parts_eq] at hrecorded
    obtain ⟨hparts, rfl⟩ := run_mapM_recording_eq_ok hrecorded
    exact .length hfs hdone (eq_ok_iff.1 hparts).1 hlength

end ExprEncoder

/-! ## The calls of a rendering -/

/-- Every section that comes before the code section can be made. -/
structure Module.ReadyForCode (m : Module) (settings : Settings) (n : Numbering) : Prop where
  types : ∃ s, Section.types n = .ok s
  imports : ∃ s, Section.imports n = .ok s
  functions : ∃ s, Section.functions n = .ok s
  table : ∃ s, Section.table m n = .ok s
  memory : ∃ s, Section.memory m settings.revision = .ok s
  exports : ∃ s, Section.exports m n = .ok s
  start : ∃ s, Section.start m n = .ok s
  elements : ∃ s, Section.elements m n = .ok s

theorem Module.sectionsBeforeCode_eq_ok {m : Module} {settings : Settings} {n : Numbering} :
    (∃ sections, m.sectionsBeforeCode settings n = .ok sections) ↔ m.ReadyForCode settings n := by
  unfold sectionsBeforeCode
  constructor
  · rintro ⟨sections, h⟩
    obtain ⟨types, htypes, h⟩ := EncodeError.bind_eq_ok.1 h
    obtain ⟨imports, himports, h⟩ := EncodeError.bind_eq_ok.1 h
    obtain ⟨functions, hfunctions, h⟩ := EncodeError.bind_eq_ok.1 h
    obtain ⟨table, htable, h⟩ := EncodeError.bind_eq_ok.1 h
    obtain ⟨memory, hmemory, h⟩ := EncodeError.bind_eq_ok.1 h
    obtain ⟨exports, hexports, h⟩ := EncodeError.bind_eq_ok.1 h
    obtain ⟨start, hstart, h⟩ := EncodeError.bind_eq_ok.1 h
    obtain ⟨elements, helements, h⟩ := EncodeError.bind_eq_ok.1 h
    exact ⟨⟨types, htypes⟩, ⟨imports, himports⟩, ⟨functions, hfunctions⟩, ⟨table, htable⟩, ⟨memory, hmemory⟩, ⟨exports, hexports⟩,
      ⟨start, hstart⟩, ⟨elements, helements⟩⟩
  · rintro ⟨⟨types, htypes⟩, ⟨imports, himports⟩, ⟨functions, hfunctions⟩, ⟨table, htable⟩, ⟨memory, hmemory⟩, ⟨exports, hexports⟩,
      ⟨start, hstart⟩, ⟨elements, helements⟩⟩
    rw [htypes, himports, hfunctions, htable, hmemory, hexports, hstart, helements]
    exact ⟨_, rfl⟩

/-- Where the function section can be made, the defined functions can be counted. -/
theorem Section.length_defined_of_functions {n : Numbering} {s : Section} (h : Section.functions n = .ok s) :
    n.defined.length < 0x100000000 := by
  obtain ⟨bytes, hbytes, -⟩ := Section.ofWriter_eq_ok.1 h
  exact (WriteM.toBytes_counted_eq_ok.1 hbytes).1

/-- A rendering starts with an empty record of calls. -/
def RenderState.withRecord (s : RenderState σ) : RenderState (σ × List EncoderCall) :=
  ⟨(s.encoder, []), s.log⟩

namespace ExprEncoder

variable {encoder : ExprEncoder σ} {settings : Settings} {m : Module} {n : Numbering}

/-- How the calls of a rendering go: which calls are made, and what the rendering ends with. -/
inductive Course (encoder : ExprEncoder σ) (settings : Settings) (m : Module) (s : RenderState σ) :
    List EncoderCall → Except EncodeError (List UInt8) → Prop
  /-- There is no code section to be made. -/
  | untouched {e : EncodeError}
      (h : ∀ n log, (Numbering.resolve m settings.revision).run s.log = .ok n log → ¬ m.ReadyForCode settings n) :
      Course encoder settings m s [] (.error e)
  /-- All calls are made; what comes after the code section may still fail. -/
  | complete {n : Numbering} {log : Log} {result : Except EncodeError (List UInt8)}
      (hn : (Numbering.resolve m settings.revision).run s.log = .ok n log) (hready : m.ReadyForCode settings n)
      (hcalls : encoder.Answers s.encoder (m.calls n.references)) : Course encoder settings m s (m.calls n.references) result
  /-- The calls stop early. -/
  | stopped {n : Numbering} {log : Log} {made : List EncoderCall} {e : EncodeError}
      (hn : (Numbering.resolve m settings.revision).run s.log = .ok n log) (hready : m.ReadyForCode settings n)
      (hstopped : encoder.Stopped n m.defined s.encoder made e) : Course encoder settings m s made (.error e)

/-- A code section that can be made makes all calls for the defined functions. -/
theorem run_code_recording_eq_ok {s : σ} {code : Section} {t : σ × List EncoderCall}
    (h : (Section.code n encoder.recording).run (s, []) = .ok code t) :
    encoder.Answers s (callsFor n.references n.defined) ∧ t.2 = callsFor n.references n.defined := by
  obtain ⟨count, -, h⟩ := EncodeError.run_lift_bind_eq_ok.1 h
  obtain ⟨entries, t₁, hentries, h⟩ := EncodeError.run_bind_eq_ok.1 h
  cases h
  obtain ⟨hcalls, rfl⟩ := run_bodyEntries_recording hentries
  exact ⟨hcalls, rfl⟩

/-- Where the code section fails, the calls for the defined functions stop. -/
theorem stopped_of_code {s : σ} {e : EncodeError} {t : σ × List EncoderCall} (hcount : n.defined.length < 0x100000000)
    (h : (Section.code n encoder.recording).run (s, []) = .error e t) : encoder.Stopped n n.defined s t.2 e := by
  rcases EncodeError.run_lift_bind_eq_error.1 h with ⟨herror, -⟩ | ⟨count, -, h⟩
  · obtain ⟨hle, -⟩ := WriteM.toBytes_len_eq_error.1 herror
    omega
  · rcases EncodeError.run_bind_eq_error.1 h with h | ⟨entries, t₁, -, h⟩
    · exact stopped_of_bodyEntries h
    · nomatch h

/-- The calls are those of the sections of a module, which make the rendering fail if they fail. -/
theorem course_of_sections {s : RenderState σ} {log : Log} (hn : (Numbering.resolve m settings.revision).run s.log = .ok n log)
    {result : Except EncodeError (List UInt8)}
    (hresult : ∀ e, outcome ((m.sections settings n encoder.recording).run (s.encoder, [])) = .error e → result = .error e) :
    encoder.Course settings m s (finalState ((m.sections settings n encoder.recording).run (s.encoder, []))).2 result := by
  have hdefined := (Numbering.resolve_describes hn).defined
  -- the encoder comes in only once the sections before the code are made, and what comes after the code leaves it alone
  cases hbefore : m.sectionsBeforeCode settings n with
  | error e =>
    rw [Module.run_sections_of_before_error hbefore] at hresult ⊢
    rw [hresult e rfl]
    refine .untouched ?_
    rintro n' log' hn' hready
    rw [hn] at hn'
    cases hn'
    obtain ⟨before, hok⟩ := Module.sectionsBeforeCode_eq_ok.2 hready
    rw [hbefore] at hok
    nomatch hok
  | ok before =>
    have hready := Module.sectionsBeforeCode_eq_ok.1 ⟨before, hbefore⟩
    cases hcode : (Section.code n encoder.recording).run (s.encoder, []) with
    | error e t =>
      rw [Module.run_sections_of_code_error hbefore hcode] at hresult ⊢
      rw [hresult e rfl]
      obtain ⟨functions, hfunctions⟩ := hready.functions
      have hstopped := stopped_of_code (Section.length_defined_of_functions hfunctions) hcode
      rw [hdefined] at hstopped
      exact .stopped hn hready hstopped
    | ok code t =>
      rw [Module.finalState_sections hbefore hcode]
      obtain ⟨hcalls, hmade⟩ := run_code_recording_eq_ok hcode
      rw [hdefined] at hcalls hmade
      rw [hmade]
      exact .complete hn hready hcalls

/-- The calls of a rendering go in one of the three ways. -/
theorem course_render (encoder : ExprEncoder σ) (settings : Settings) (m : Module) (s : RenderState σ) :
    encoder.Course settings m s (finalState ((encoder.recording.render settings m).run s.withRecord)).encoder.2
      (outcome ((encoder.recording.render settings m).run s.withRecord)) := by
  cases hn : (Numbering.resolve m settings.revision).run s.log with
  | error e log =>
    have hrun : (encoder.recording.render settings m).run s.withRecord = .error e _ := run_render_of_resolve_error hn
    rw [hrun]
    refine .untouched ?_
    intro n log' hn'
    rw [hn] at hn'
    nomatch hn'
  | ok n log =>
    have hrun : (encoder.recording.render settings m).run s.withRecord = _ := run_render_of_resolve hn
    rw [hrun, RenderM.encoder_finalState_finish]
    exact course_of_sections hn fun e he => RenderM.outcome_finish_of_error he

section

variable {s : RenderState σ} {made : List EncoderCall} {result : Except EncodeError (List UInt8)} {log : Log}

/-- There are calls only once all numbers are known and the sections before the code are made; and then they are the first of all
calls. -/
theorem Course.exists_isPrefix (h : encoder.Course settings m s made result) (hne : made ≠ []) :
    ∃ n log, (Numbering.resolve m settings.revision).run s.log = .ok n log ∧ m.ReadyForCode settings n ∧
      made <+: m.calls n.references := by
  cases h with
  | untouched h => exact absurd rfl hne
  | complete hn hready hcalls => exact ⟨_, _, hn, hready, List.prefix_refl _⟩
  | stopped hn hready hstopped => exact ⟨_, _, hn, hready, hstopped.isPrefix⟩

/-- A call that fails is the last one, and its error is what the rendering ends with. -/
theorem Course.eq_last (h : encoder.Course settings m s made result) {done rest : List EncoderCall} {c : EncoderCall}
    {e : EncodeError} {s' : σ} (hmade : made = done ++ c :: rest)
    (hc : (encoder.answer c).run (encoder.after s.encoder done) = .error e s') : rest = [] ∧ result = .error e := by
  cases h with
  | untouched h => simp at hmade
  | complete hn hready hcalls => exact absurd hc (hcalls.not_error hmade)
  | stopped hn hready hstopped =>
    obtain ⟨hrest, rfl⟩ := hstopped.eq_last hmade hc
    exact ⟨hrest, rfl⟩

/-- Once all numbers are known and the sections before the code are made, all calls are made unless they stop early. -/
theorem Course.complete_or_stopped (h : encoder.Course settings m s made result)
    (hn : (Numbering.resolve m settings.revision).run s.log = .ok n log) (hready : m.ReadyForCode settings n) :
    made = m.calls n.references ∨ ∃ e, result = .error e ∧ encoder.Stopped n m.defined s.encoder made e := by
  cases h with
  | untouched h => exact absurd hready (h n log hn)
  | complete hn' _ hcalls =>
    rw [hn] at hn'
    cases hn'
    exact .inl rfl
  | stopped hn' _ hstopped =>
    rw [hn] at hn'
    cases hn'
    exact .inr ⟨_, rfl, hstopped⟩

/-- A rendering that succeeds makes all calls. -/
theorem Course.eq_calls {bytes : List UInt8} (h : encoder.Course settings m s made (.ok bytes))
    (hn : (Numbering.resolve m settings.revision).run s.log = .ok n log) : made = m.calls n.references := by
  cases h with
  | complete hn' _ hcalls =>
    rw [hn] at hn'
    cases hn'
    rfl

end

/-- Bodies are put together from what the encoder gives at the calls for their functions. -/
theorem exists_parts {fs : List Function} {bodies : List (List UInt8)} {s s' : σ}
    (h : (fs.mapM (encoder.body n)).run s = .ok bodies s') :
    ∃ parts, (fs.mapM (encoder.parts n.references)).run s = .ok parts s' ∧
      bodies = List.zipWith (fun f => f.assemble n.revision) fs parts := by
  induction fs generalizing bodies s with
  | nil =>
    cases h
    exact ⟨[], rfl, rfl⟩
  | cons f fs ih =>
    obtain ⟨body, rest, s₁, hbody, hrest, rfl⟩ := EncodeError.run_mapM_cons_eq_ok.1 h
    obtain ⟨-, parts, hparts, rfl⟩ := run_body_eq_ok.1 hbody
    obtain ⟨others, hothers, rfl⟩ := ih hrest
    rw [← parts_eq] at hparts
    exact ⟨parts :: others, EncodeError.run_mapM_cons_eq_ok.2 ⟨parts, others, s₁, hparts, hothers, rfl⟩, rfl⟩

end ExprEncoder

/-! ## Renderings in a row -/

/-- A rendering: the module, and the state of the renderer before. -/
structure Rendering (σ : Type) where
  /-- The module to be rendered. -/
  module : Module
  /-- What the renderer starts from. -/
  before : RenderState σ

namespace Rendering

variable (r : Rendering σ) (encoder : ExprEncoder σ) (settings : Settings)

/-- How the rendering ends. -/
def result : EStateM.Result EncodeError (RenderState σ) (List UInt8) :=
  (encoder.render settings r.module).run r.before

/-- How the rendering ends if the calls of the encoder are recorded. -/
def recordedResult : EStateM.Result EncodeError (RenderState (σ × List EncoderCall)) (List UInt8) :=
  (encoder.recording.render settings r.module).run r.before.withRecord

/-- The calls of the encoder. -/
def calls : List EncoderCall :=
  (finalState (r.recordedResult encoder settings)).encoder.2

/-- What a rendering does with its encoder. -/
structure Protocol : Prop where
  /-- Recording the calls changes nothing else. -/
  recorded : outcome (r.recordedResult encoder settings) = outcome (r.result encoder settings) ∧
    finalState (r.recordedResult encoder settings) =
      ⟨((finalState (r.result encoder settings)).encoder, r.calls encoder settings), (finalState (r.result encoder settings)).log⟩
  /-- If there are calls, then the numbers are known and every section before the code is made, and the calls are those for the module
  from the first one on, all with the same numbers. So there are none if one of those sections fails. -/
  inOrder : r.calls encoder settings ≠ [] →
    ∃ n log, (Numbering.resolve r.module settings.revision).run r.before.log = .ok n log ∧
      r.module.ReadyForCode settings n ∧ r.calls encoder settings <+: r.module.calls n.references
  /-- A call that fails is the last one, and its error is what the rendering ends with. -/
  failure : ∀ done c rest e s', r.calls encoder settings = done ++ c :: rest →
    (encoder.answer c).run (encoder.after r.before.encoder done) = .error e s' →
      rest = [] ∧ outcome (r.result encoder settings) = .error e
  /-- If the numbers are known and the sections before the code are made, then either all calls for the module are made, or the
  rendering fails because the calls stop early. -/
  complete : ∀ n log, (Numbering.resolve r.module settings.revision).run r.before.log = .ok n log →
    r.module.ReadyForCode settings n → r.calls encoder settings = r.module.calls n.references ∨
      ∃ e, outcome (r.result encoder settings) = .error e ∧
        encoder.Stopped n r.module.defined r.before.encoder (r.calls encoder settings) e
  /-- The encoder is left in the state in which its calls leave it. -/
  state : (finalState (r.result encoder settings)).encoder = encoder.after r.before.encoder (r.calls encoder settings)
  /-- If the rendering succeeds, all calls for the module are made, and the bodies in the binary are put together from what the encoder
  gives at them. -/
  bodies : ∀ bytes, outcome (r.result encoder settings) = .ok bytes →
    ∃ n log b parts, (Numbering.resolve r.module settings.revision).run r.before.log = .ok n log ∧
      r.calls encoder settings = r.module.calls n.references ∧
      (r.module.defined.mapM (encoder.parts n.references)).run r.before.encoder =
        .ok parts (finalState (r.result encoder settings)).encoder ∧
      Binary.ofBytes? bytes = some b ∧
      b.section? .code readBodies = some (some (List.zipWith (fun f => f.assemble settings.revision) r.module.defined parts))

/-- With a record, the rendering ends as without, and the record tells in which state it leaves the encoder. -/
theorem related_recordedResult :
    outcome (r.result encoder settings) = outcome (r.recordedResult encoder settings) ∧
      (finalState (r.result encoder settings)).Related (encoder.Recorded r.before.encoder)
        (finalState (r.recordedResult encoder settings)) :=
  ExprEncoder.alike_render (encoder.alike_recording r.before.encoder) settings r.module r.before r.before.withRecord
    ⟨⟨rfl, rfl⟩, rfl⟩

theorem protocol : r.Protocol encoder settings := by
  obtain ⟨houtcome, ⟨hencoder, hafter⟩, hlog⟩ := r.related_recordedResult encoder settings
  have hcourse : encoder.Course settings r.module r.before (r.calls encoder settings) (outcome (r.result encoder settings)) := by
    rw [houtcome]
    exact encoder.course_render settings r.module r.before
  refine ⟨⟨houtcome.symm, ?_⟩, hcourse.exists_isPrefix, ?_, ?_, hafter.symm, ?_⟩
  · rw [← hencoder, hlog]
    rfl
  · intro done c rest e s' hmade hc
    exact hcourse.eq_last hmade hc
  · intro n log hn hready
    exact hcourse.complete_or_stopped hn hready
  · intro bytes hbytes
    rw [hbytes] at hcourse
    have hrun : r.result encoder settings = .ok bytes _ := eq_ok_iff.2 ⟨hbytes, rfl⟩
    obtain ⟨n, log, t, hn, hdescribes, hmade, hbinary⟩ := ExprEncoder.exists_slots_of_render hrun
    obtain ⟨bodies, hbodies, hcode⟩ := Section.says_code_of_run hmade.code
    obtain ⟨parts, hparts, rfl⟩ := ExprEncoder.exists_parts hbodies
    rw [hdescribes.defined, hdescribes.revision] at hcode
    rw [hdescribes.defined] at hparts
    exact ⟨n, log, _, parts, hn, hcourse.eq_calls hn, hparts, hbinary, hmade.section?_eq settings.revision (.some hcode)⟩

end Rendering

/-- The renderings of modules in a row: each starts from what the one before left, whether or not that one failed. -/
def ExprEncoder.renderings (encoder : ExprEncoder σ) (settings : Settings) : RenderState σ → List Module → List (Rendering σ)
  | _, [] => []
  | s, m :: ms =>
    let r : Rendering σ := ⟨m, s⟩
    r :: encoder.renderings settings (finalState (r.result encoder settings)) ms

/-- What modules in a row leave behind. -/
def ExprEncoder.stateAfter (encoder : ExprEncoder σ) (settings : Settings) (s : RenderState σ) (ms : List Module) :
    RenderState σ :=
  ms.foldl (fun s m => finalState ((encoder.render settings m).run s)) s

/-- An encoder that counts its calls, gives their numbers as bytes, and fails from the third call on. -/
def ExprEncoder.tiring : ExprEncoder Nat where
  encode _ _ := fun k => if k < 2 then .ok [k.toUInt8] (k + 1) else .error (.outOfRange "call" k) (k + 1)

namespace Rendering

/-- Once the sections before the code are made, all calls for the module are made, unless one fails and the rendering ends with its
error. -/
def StopsOnlyAtFailure (r : Rendering σ) (encoder : ExprEncoder σ) (settings : Settings) : Prop :=
  ∀ n log, (Numbering.resolve r.module settings.revision).run r.before.log = .ok n log → r.module.ReadyForCode settings n →
    r.calls encoder settings = r.module.calls n.references ∨
      ∃ done c e s', r.calls encoder settings = done ++ [c] ∧
        (encoder.answer c).run (encoder.after r.before.encoder done) = .error e s' ∧ outcome (r.result encoder settings) = .error e

variable {r : Rendering σ} {encoder : ExprEncoder σ} {settings : Settings} {n : Numbering} {log : Log} {e : EncodeError}
  {t : σ × List EncoderCall}

/-- Where the code section fails, so does the rendering, and its calls are those made until then. -/
theorem calls_of_code_error (hn : (Numbering.resolve r.module settings.revision).run r.before.log = .ok n log)
    (hready : r.module.ReadyForCode settings n)
    (hcode : (Section.code n encoder.recording).run (r.before.encoder, []) = .error e t) :
    r.calls encoder settings = t.2 ∧ outcome (r.result encoder settings) = .error e := by
  obtain ⟨before, hbefore⟩ := Module.sectionsBeforeCode_eq_ok.2 hready
  have hsections := Module.run_sections_of_code_error hbefore hcode
  have hrun : r.recordedResult encoder settings = _ := ExprEncoder.run_render_of_resolve hn
  constructor
  · unfold calls
    rw [hrun, RenderM.encoder_finalState_finish]
    exact congrArg (fun result => (finalState result).2) hsections
  · rw [(r.related_recordedResult encoder settings).1, hrun]
    exact RenderM.outcome_finish_of_error (congrArg outcome hsections)

/-- With an encoder that never fails, the calls of a code section that fails stop for another reason. -/
theorem not_stopsOnlyAtFailure (hanswers : ∀ c s e' s', (encoder.answer c).run s ≠ .error e' s')
    (hn : (Numbering.resolve r.module settings.revision).run r.before.log = .ok n log) (hready : r.module.ReadyForCode settings n)
    (hcode : (Section.code n encoder.recording).run (r.before.encoder, []) = .error e t)
    (hfew : t.2.length < (r.module.calls n.references).length) :
    outcome (r.result encoder settings) = .error e ∧ ¬ r.StopsOnlyAtFailure encoder settings := by
  obtain ⟨hcalls, houtcome⟩ := calls_of_code_error hn hready hcode
  refine ⟨houtcome, ?_⟩
  intro h
  rcases h n log hn hready with hall | ⟨done, c, e', s', -, hc, -⟩
  · rw [← hcalls, hall] at hfew
    exact Nat.lt_irrefl _ hfew
  · exact hanswers c _ e' s' hc

end Rendering

namespace ExprEncoder

/-- An encoder that never fails, and gives so many bytes at each call. -/
def flooding (size : Nat) : ExprEncoder Unit where
  encode _ _ := pure (List.replicate size 0)

variable {encoder : ExprEncoder σ} {n : Numbering} {f : Function}

/-- The code section fails as the entry of its first body does. -/
theorem run_code_of_first {fs : List Function} {s s' : σ} {e : EncodeError} (hdefined : n.defined = f :: fs)
    (hcount : n.defined.length < 0x100000000) (hentry : (encoder.bodyEntry n f).run s = .error e s') :
    (Section.code n encoder).run s = .error e s' := by
  have hentries := EncodeError.run_mapM_eq_error.2 ⟨[], f, fs, [], s, hdefined, rfl, hentry⟩
  exact EncodeError.run_lift_bind_eq_error.2
    (.inr ⟨_, WriteM.toBytes_len_eq_ok.2 ⟨hcount, rfl⟩, EncodeError.run_bind_eq_error.2 (.inl hentries)⟩)

/-- A body that is too long fails after the calls for its function. -/
theorem run_bodyEntry_flooding {size : Nat} (hsize : 0x100000000 ≤ size) (hruns : f.runs.length < 0x100000000) {e : Expr}
    (hbody : f.body = [e]) :
    ((flooding size).recording.bodyEntry n f).run ((), []) =
      .error (.outOfRange "length" (f.assemble n.revision [List.replicate size 0]).length) ((), [⟨n.references, e⟩]) := by
  have hcode : (f.body.mapM ((flooding size).recording.encode n.references)).run ((), []) =
      .ok [List.replicate size 0] ((), [⟨n.references, e⟩]) := by
    rw [hbody]
    rfl
  have hlong : 0x100000000 ≤ (f.assemble n.revision [List.replicate size 0]).length := by
    simp only [Function.assemble, List.flatten_singleton, List.length_append, List.length_replicate]
    omega
  exact run_bodyEntry_eq_error.2 (.inr ⟨_, run_body_eq_ok.2 ⟨hruns, _, hcode, rfl⟩, hlong, rfl⟩)

/-- A function with too many runs of locals fails before the calls for it. -/
theorem run_bodyEntry_of_runs (encoder : ExprEncoder σ) (s : σ) (hruns : 0x100000000 ≤ f.runs.length) :
    (encoder.bodyEntry n f).run s = .error (.outOfRange "length" f.runs.length) s :=
  run_bodyEntry_eq_error.2 (.inl (run_body_eq_error.2 (.inl ⟨hruns, rfl, rfl⟩)))

end ExprEncoder

/-- Locals of two types in turn. -/
def ValueType.alternating : Nat → List ValueType
  | 0 => []
  | k + 1 => .i32 :: .i64 :: alternating k

namespace LocalRun

theorem ofTypes_alternating_succ (k : Nat) :
    ofTypes (ValueType.alternating (k + 1)) = ⟨1, .i32⟩ :: ⟨1, .i64⟩ :: ofTypes (ValueType.alternating k) := by
  have hhead : ∀ run ∈ (ofTypes (ValueType.alternating k)).head?, ValueType.i64 ≠ run.type := by
    cases k with
    | zero => nofun
    | succ k =>
      intro run hrun
      rw [type_of_mem_head?_push hrun]
      decide
  show push .i32 (push .i64 (ofTypes (ValueType.alternating k))) = _
  rw [push_of_ne hhead]
  rfl

/-- Each of them is a run of its own. -/
theorem length_ofTypes_alternating (k : Nat) : (ofTypes (ValueType.alternating k)).length = 2 * k := by
  induction k with
  | zero => rfl
  | succ k ih => rw [ofTypes_alternating_succ, List.length_cons, List.length_cons, ih, Nat.mul_succ]

end LocalRun

/-- A function that does nothing, in one expression. -/
def Function.idle (name : String) (vars : List ValueType) : Function :=
  { Function.new name with vars := vars.toArray, body := [.nop] }

namespace Module

/-- Two functions with one expression each, the first one with locals. -/
def idle (vars : List ValueType) : Module :=
  { Module.empty with functions := (FunctionTable.empty.insert (.idle "first" vars)).insert (.idle "second" []) }

theorem exists_readyForCode (m : Module) (settings : Settings)
    (h : (outcome ((Numbering.resolve m settings.revision).run []) >>= m.sectionsBeforeCode settings).isOk = true) :
    ∃ n log, (Numbering.resolve m settings.revision).run [] = .ok n log ∧ m.ReadyForCode settings n := by
  obtain ⟨before, hbefore⟩ := EncodeError.exists_of_isOk h
  obtain ⟨n, houtcome, hbefore⟩ := EncodeError.bind_eq_ok.1 hbefore
  exact ⟨n, _, eq_ok_iff.2 ⟨houtcome, rfl⟩, sectionsBeforeCode_eq_ok.1 ⟨before, hbefore⟩⟩

theorem defined_idle (vars : List ValueType) : (idle vars).defined = [.idle "first" vars, .idle "second" []] := rfl

end Module

/-- With an encoder that never fails, the calls for the two functions stop early if the entry of the first one fails with one call or none. -/
theorem idle_not_stopsOnlyAtFailure {vars : List ValueType} {size : Nat} {e : EncodeError}
    (hready : (outcome ((Numbering.resolve (.idle vars) .v12).run []) >>=
      (Module.idle vars).sectionsBeforeCode ⟨.v12, true⟩).isOk = true)
    (hentry : ∀ n : Numbering, n.revision = .v12 → ∃ t : Unit × List EncoderCall,
      ((ExprEncoder.flooding size).recording.bodyEntry n (.idle "first" vars)).run ((), []) = .error e t ∧ t.2.length < 2) :
    outcome (Rendering.result ⟨.idle vars, ⟨(), []⟩⟩ (.flooding size) ⟨.v12, true⟩) = .error e ∧
      ¬ Rendering.StopsOnlyAtFailure ⟨.idle vars, ⟨(), []⟩⟩ (.flooding size) ⟨.v12, true⟩ := by
  have hanswers : ∀ c s e' s', ((ExprEncoder.flooding size).answer c).run s ≠ .error e' s' := by
    rintro c s e' s' ⟨⟩
  obtain ⟨n, log, hn, hready⟩ := Module.exists_readyForCode (.idle vars) ⟨.v12, true⟩ hready
  have hdescribes := Numbering.resolve_describes hn
  obtain ⟨functions, hfunctions⟩ := hready.functions
  obtain ⟨t, hfirst, hfew⟩ := hentry n hdescribes.revision
  have hdefined := hdescribes.defined.trans (Module.defined_idle vars)
  have hcode := ExprEncoder.run_code_of_first hdefined (Section.length_defined_of_functions hfunctions) hfirst
  exact Rendering.not_stopsOnlyAtFailure hanswers hn hready hcode hfew

end WasmBinary
