import WasmBinary.Proofs.CrossReferences
import WasmBinary.Proofs.EncodedBodies

/-!
# The numbers of locals

The locals of a function are declared one by one, parameters and others in any order. A parameter goes in after the parameters
there are and moves all other locals up; any other local goes to the end (`LocalList`). A binary says what the locals of a function are in
two places: the parameters in the signature, the others in the runs at the head of the body. Read together, they give back the locals
in the order of their numbers (`render_locals`).
-/

namespace WasmBinary

/-! ## Declaring locals -/

/-- The declaration of a local. -/
inductive Declaration where
  /-- A parameter. -/
  | param (t : ValueType)
  /-- A local that is not a parameter. -/
  | var (t : ValueType)
  deriving DecidableEq, Repr

namespace Function

/-- Declares a local of a function. -/
def declare (f : Function) : Declaration → Function
  | .param t => (f.pushParam t).1
  | .var t => (f.pushVar t).1

/-- Declares locals of a function one by one. -/
def declareAll (f : Function) (ds : List Declaration) : Function :=
  ds.foldl declare f

/-- The locals of the function are those that declarations give a new function. -/
def DeclaredBy (f : Function) (ds : List Declaration) : Prop :=
  f.params = ((new f.name).declareAll ds).params ∧ f.vars = ((new f.name).declareAll ds).vars

end Function

/-- Locals in one list, in the order of their numbers. -/
structure LocalList where
  /-- How many of them, from the first on, are parameters. -/
  params : Nat
  /-- The type of each. -/
  types : List ValueType
  deriving DecidableEq, Repr

namespace LocalList

/-- No locals. -/
def empty : LocalList := ⟨0, []⟩

/-- Declares a local: a parameter goes in after the parameters, any other local goes to the end. -/
def declare (s : LocalList) : Declaration → LocalList
  | .param t => ⟨s.params + 1, s.types.insertIdx s.params t⟩
  | .var t => ⟨s.params, s.types ++ [t]⟩

/-- Declares locals one by one. -/
def declareAll (s : LocalList) (ds : List Declaration) : LocalList :=
  ds.foldl declare s

/-- The locals of a function are those in the list. -/
def Matches (s : LocalList) (f : Function) : Prop :=
  s.params = f.params.size ∧ s.types = f.locals

theorem matches_new (name : String) : empty.Matches (Function.new name) :=
  ⟨rfl, rfl⟩

/-- A declaration does the same to the list and to the function. -/
theorem Matches.declare {s : LocalList} {f : Function} (h : s.Matches f) (d : Declaration) : (s.declare d).Matches (f.declare d) := by
  obtain ⟨hparams, htypes⟩ := h
  cases d with
  | param t =>
    refine ⟨?_, ?_⟩
    · show s.params + 1 = (f.params.push t).size
      rw [Array.size_push, hparams]
    · show s.types.insertIdx s.params t = (f.pushParam t).1.locals
      rw [hparams, htypes, Function.locals_pushParam, Function.locals, ← Array.length_toList]
      exact insertIdx_length_append _ _ t
  | var t =>
    refine ⟨hparams, ?_⟩
    show s.types ++ [t] = (f.pushVar t).1.locals
    rw [htypes, Function.locals_pushVar]

/-- So do any number of declarations. -/
theorem Matches.declareAll {s : LocalList} {f : Function} (h : s.Matches f) (ds : List Declaration) :
    (s.declareAll ds).Matches (f.declareAll ds) := by
  induction ds generalizing s f with
  | nil => exact h
  | cons d ds ih => exact ih (h.declare d)

end LocalList

theorem Function.DeclaredBy.locals_eq {f : Function} {ds : List Declaration} (h : f.DeclaredBy ds) :
    f.locals = (LocalList.empty.declareAll ds).types := by
  obtain ⟨-, htypes⟩ := (LocalList.matches_new f.name).declareAll ds
  obtain ⟨hparams, hvars⟩ := h
  rw [htypes, Function.locals, Function.locals, hparams, hvars]

/-! ## Runs are stored as they are -/

namespace LocalRun

/-- No run is longer than what the runs stand for. -/
theorem count_le_length_expand {runs : List LocalRun} {run : LocalRun} (h : run ∈ runs) : run.count ≤ (expand runs).length := by
  obtain ⟨before, after, rfl⟩ := List.append_of_mem h
  simp only [expand, List.flatMap_append, List.flatMap_cons, List.length_append, List.length_replicate]
  omega

/-- Where all lengths fit in 32 bits, the runs that a binary holds stand for the same locals. -/
theorem expand_map_stored {ts : List ValueType} (h : ts.length < 0x100000000) : expand ((ofTypes ts).map stored) = ts := by
  have hstored : ∀ run ∈ ofTypes ts, run.stored = run := by
    intro run hrun
    have hle := count_le_length_expand hrun
    rw [expand_ofTypes] at hle
    rw [stored, Nat.mod_eq_of_lt (by omega)]
  rw [List.map_congr_left hstored, List.map_id'', expand_ofTypes]
  exact fun _ => rfl

end LocalRun

/-! ## Locals in a binary -/

/-- The types of the locals of a defined function, by its place among the defined functions: the parameters of the signature that the
function section names, then what the runs at the head of its body stand for. -/
def Binary.locals? (b : Binary) (j : Nat) : Option (List ValueType) := do
  let types ← (← b.section? .types readTypes)
  let functions ← (← b.section? .functions readIndexes)
  let bodies ← (← b.section? .code readBodies)
  let signature ← types[(← functions[j]?).toNat]?
  let entry ← BodyEntry.ofBytes? (← bodies[j]?)
  return signature.params ++ LocalRun.expand entry.locals

section

variable {σ : Type} {encoder : ExprEncoder σ}

/-- The bodies that an encoder makes start with the runs of the functions' locals. -/
theorem ExprEncoder.ofBytes?_bodies {n : Numbering} {fs : List Function} {bodies : List (List UInt8)} {before after : σ}
    (h : (fs.mapM (encoder.body n)).run before = .ok bodies after) :
    List.Forall₂ (fun f body => ∃ code, BodyEntry.ofBytes? body = some ⟨f.storedRuns, code⟩) fs bodies := by
  induction fs generalizing bodies before with
  | nil =>
    cases h
    exact .nil
  | cons f fs ih =>
    obtain ⟨body, rest, s, hbody, hrest, rfl⟩ := EncodeError.run_mapM_cons_eq_ok.1 h
    obtain ⟨hlt, parts, -, rfl⟩ := ExprEncoder.run_body_eq_ok.1 hbody
    exact .cons ⟨_, Function.ofBytes?_head_append hlt _⟩ (ih hrest)

variable {m : Module} {settings : Settings}

/-- What the sections say together about the locals of a defined function is what the function says. -/
theorem Slots.MadeBy.locals?_eq {n : Numbering} {t : Slots} {before after : σ} (h : t.MadeBy encoder m settings n before after)
    (hn : n.Describes m settings.revision) (hlocals : ∀ f ∈ m.defined, f.locals.length < 0x100000000) (j : Nat) :
    (t.binary settings.revision).locals? j = m.defined[j]?.map Function.locals := by
  obtain ⟨functions, hfunctions, hsays⟩ := Section.says_functions h.functions
  obtain ⟨bodies, hbodies, hcode⟩ := Section.says_code_of_run h.code
  rw [hn.defined] at hfunctions hbodies
  have hentries := ExprEncoder.ofBytes?_bodies hbodies
  unfold Binary.locals?
  rw [h.section?_eq settings.revision (.some (Section.says_types h.types)), h.section?_eq settings.revision (.some hsays),
    h.section?_eq settings.revision (.some hcode)]
  simp only [Option.bind_eq_bind, Option.bind_some]
  cases hf : m.defined[j]? with
  | none =>
    have hnone : functions[j]? = none := by
      rw [List.getElem?_eq_none_iff, ← hfunctions.length_eq]
      exact List.getElem?_eq_none_iff.1 hf
    simp [hnone]
  | some f =>
    obtain ⟨i, hi, hnumber⟩ := forall₂_getElem? hfunctions hf
    obtain ⟨body, hbody, code, hentry⟩ := forall₂_getElem? hentries hf
    have hsignature : n.signatures[i.toNat]? = some f.signature := Catalog.number_eq_ok.1 hnumber
    have hvars : f.vars.toList.length < 0x100000000 := by
      have hlt := hlocals f (List.mem_of_getElem? hf)
      rw [Function.locals, List.length_append] at hlt
      omega
    have hexpand : LocalRun.expand f.storedRuns = f.vars.toList := LocalRun.expand_map_stored hvars
    simp [hi, hsignature, hbody, hentry, hexpand, Function.locals, Function.signature]

/-- The locals of the defined functions are read back in the order of their numbers: what the types, the functions and the bodies of a
binary say together about the locals of a defined function is what the function says, and what its declarations make of an empty list.
The code section is read to its end and has one body for each defined function. -/
theorem render_locals {before after : RenderState σ} {bytes : List UInt8}
    (h : (encoder.render settings m).run before = .ok bytes after) (hlocals : ∀ f ∈ m.defined, f.locals.length < 0x100000000) :
    ∃ b bodies, Binary.ofBytes? bytes = some b ∧ b.section? .code readBodies = some (some bodies) ∧
      bodies.length = m.defined.length ∧ (∀ j, b.locals? j = m.defined[j]?.map Function.locals) ∧
      ∀ j f ds, m.defined[j]? = some f → f.DeclaredBy ds → b.locals? j = some (LocalList.empty.declareAll ds).types := by
  obtain ⟨n, log, t, -, hn, hmade, hbytes⟩ := ExprEncoder.exists_slots_of_render h
  obtain ⟨bodies, hbodies, hcode⟩ := Section.says_code_of_run hmade.code
  have hlength := EncodeError.length_of_run_mapM hbodies
  rw [hn.defined] at hlength
  have hread := hmade.locals?_eq hn hlocals
  refine ⟨_, bodies, hbytes, hmade.section?_eq settings.revision (.some hcode), hlength, hread, ?_⟩
  intro j f ds hf hds
  rw [hread, hf, Option.map_some, hds.locals_eq]

end

/-- Declarations of parameters between those of other locals. -/
def Declaration.interleaved : List Declaration :=
  [.var .f64, .param .i32, .var .f64, .param .i64, .var .i32]

/-- A module with one function, whose parameters are declared between its other locals. -/
def Module.interleaved : Module :=
  { Module.empty with functions := FunctionTable.empty.insert ((Function.new "mix").declareAll Declaration.interleaved) }

/-- Both parameters come first, though a local of another kind was declared before each. -/
theorem render_locals_interleaved :
    ∃ bytes b bodies, Module.interleaved.render ⟨.v12, false⟩ = .ok bytes ∧ Binary.ofBytes? bytes = some b ∧
      b.section? .code readBodies = some (some bodies) ∧ bodies.length = 1 ∧ b.locals? 0 = some [.i32, .i64, .f64, .f64, .i32] := by
  have hok : (Module.interleaved.render ⟨.v12, false⟩).isOk = true := by decide +kernel
  obtain ⟨bytes, hbytes⟩ := EncodeError.exists_of_isOk hok
  obtain ⟨after, hrun⟩ := Module.render_eq_ok.1 hbytes
  obtain ⟨b, bodies, hb, hbodies, hlength, -, hdeclared⟩ := render_locals hrun (by decide)
  refine ⟨bytes, b, bodies, hbytes, hb, hbodies, hlength, ?_⟩
  exact hdeclared 0 ((Function.new "mix").declareAll Declaration.interleaved) Declaration.interleaved rfl ⟨rfl, rfl⟩

end WasmBinary
