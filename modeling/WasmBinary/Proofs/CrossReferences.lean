import WasmBinary.Proofs.Contents

/-!
# References between sections

The sections of a binary refer to each other by number only. The functions that a number can select are the entries of the function
section, preceded under revision 0xC by those of the import section (`Contents.entities`). In a rendered module every number selects
the function or the signature that the module means: in the lists of imports, functions, exports, the table and the start, and in
every call of every body.
-/

namespace WasmBinary

/-- A function as other sections see it: an imported one, or the number of the signature of a defined one. -/
inductive Entity where
  | imported (e : ImportEntry)
  | defined (signature : UInt32)
  deriving DecidableEq, Repr

namespace Contents

/-- The functions that a number can select, in the order of their numbers. -/
def entities (c : Contents) : List Entity :=
  match c.revision with
  | .v11 => c.functions.map .defined
  | .v12 => c.imports.map .imported ++ c.functions.map .defined

/-- The entity is that of a function: imported if it is, and with its signature. -/
def Stands (c : Contents) (f : Function) : Entity → Prop
  | .imported e => ∃ source, f.importSource = some source ∧ c.Imports (f, source) e
  | .defined t => f.isImport = false ∧ c.types[t.toNat]? = some f.signature

/-- The number selects the entity of the function that a name of the module stands for. -/
def Refers (c : Contents) (m : Module) (i : UInt32) (name : String) : Prop :=
  ∃ f e, m.function? name = some f ∧ (m.numbered c.revision)[i.toNat]? = some f ∧ c.entities[i.toNat]? = some e ∧ c.Stands f e

end Contents

namespace Contents.Represents

variable {c : Contents} {m : Module} {settings : Settings} (h : c.Represents m settings)
include h

/-- The import entries stand for the imported functions. -/
theorem stands_imports : List.Forall₂ c.Stands m.importedFunctions (c.imports.map .imported) := by
  have himports : List.Forall₂ (fun p e => p.1.importSource = some p.2 ∧ c.Imports p e) m.imported c.imports :=
    (List.forall₂_and_left _ _).2 ⟨fun p hp => Module.importSource_of_mem_imported hp, h.imports⟩
  rw [Module.importedFunctions, List.forall₂_map_left_iff, List.forall₂_map_right_iff]
  exact himports.imp fun p e hp => ⟨p.2, hp⟩

/-- The function entries stand for the defined functions. -/
theorem stands_functions : List.Forall₂ c.Stands m.defined (c.functions.map .defined) := by
  rw [List.forall₂_map_right_iff]
  exact (List.forall₂_and_left _ _).2 ⟨fun f hf => Module.isImport_of_mem_defined hf, h.functions⟩

/-- Each function that has a number has its entity at that number. -/
theorem stands_entities : List.Forall₂ c.Stands (m.numbered c.revision) c.entities := by
  unfold Module.numbered entities
  cases c.revision with
  | v11 => exact h.stands_functions
  | v12 => exact List.rel_append h.stands_imports h.stands_functions

/-- A number that selects a function of the module selects its entity. -/
theorem refers_of_selects {i : UInt32} {name : String} (hi : m.Selects (m.numbered c.revision) i name) : c.Refers m i name := by
  obtain ⟨f, hf, hplace⟩ := hi
  obtain ⟨e, he, hstands⟩ := forall₂_getElem? h.stands_entities hplace
  exact ⟨f, e, hf, hplace, he, hstands⟩

end Contents.Represents

/-- Every number in a rendered module selects what the module means. The import entries are the imported functions, and the entries
of the function, code and name sections are the defined functions, all in the order of the module. Exports, the start and the table
select the entities of the functions that they name, one by one and with repetitions; the table is as large as it has entries. -/
theorem render_references {m : Module} {settings : Settings} {bytes : List UInt8} (h : m.render settings = .ok bytes) :
    ∃ c, Contents.ofBytes? bytes = some c ∧ c.revision = settings.revision ∧
      List.Forall₂ c.Imports m.imported c.imports ∧
      List.Forall₂ (fun f t => c.types[t.toNat]? = some f.signature) m.defined c.functions ∧
      List.Forall₂ (c.Implements m) m.defined c.bodies ∧
      (c.names = if settings.nameSection then some (m.defined.map Function.name) else none) ∧
      List.Forall₂ c.Stands (m.numbered c.revision) c.entities ∧
      List.Forall₂ (fun p e => e.name = p.2 ∧ c.Refers m e.function p.1) m.exported c.exports ∧
      Option.Rel (fun name i => c.Refers m i name) m.start c.start ∧
      List.Forall₂ (fun name i => c.Refers m i name) m.table c.table ∧
      c.tableSize.map UInt32.toNat = (if c.revision.combined && !m.table.isEmpty then some m.table.length else none) := by
  obtain ⟨c, hc, hrep⟩ := Module.render_represents h
  refine ⟨c, hc, hrep.revision, hrep.imports, hrep.functions, hrep.bodies, hrep.names, hrep.stands_entities, ?_, ?_, ?_,
    hrep.tableSize⟩
  · exact hrep.exports.imp fun p e he => ⟨he.1, hrep.refers_of_selects he.2⟩
  · exact rel_imp (fun name i hi => hrep.refers_of_selects hi) hrep.start
  · exact hrep.table.imp fun name i hi => hrep.refers_of_selects hi

/-- The table and the start of a module under revision 0xC, where an imported function is numbered before the defined ones. -/
theorem render_references_sample :
    ∃ bytes c, Module.sample.render ⟨.v12, true⟩ = .ok bytes ∧ Contents.ofBytes? bytes = some c ∧
      Option.Rel (fun name i => c.Refers Module.sample i name) (some "main") c.start ∧
      List.Forall₂ (fun name i => c.Refers Module.sample i name) ["main", "add", "add"] c.table := by
  obtain ⟨bytes, hbytes⟩ := Module.exists_render_sample .v12
  obtain ⟨c, hc, -, -, -, -, -, -, -, hstart, htable, -⟩ := render_references hbytes
  exact ⟨bytes, c, hbytes, hc, hstart, htable⟩

/-! ## Calls -/

/-- Whether the node calls a function. -/
def Expr.isCall : Expr → Bool
  | call .. | callIndirect .. => true
  | _ => false

/-- The call nodes of a function's body, in the order in which the calls happen. -/
def Function.callNodes (f : Function) : List Expr :=
  (f.body.flatMap Expr.postorder).filter Expr.isCall

/-- The instruction makes the call of a node. A function that is imported has an instruction of its own under revision 0xB, with the
number of its import entry; any other call of a function selects its entity. An indirect call selects its signature. -/
inductive Contents.CallSite (c : Contents) (m : Module) : Expr → Instr → Prop
  | callImport {name : String} {args : List Expr} {i : UInt32} {f : Function} {source : ImportSource} {e : ImportEntry}
    (hr : c.revision = .v11) (hf : m.function? name = some f) (hsource : f.importSource = some source)
    (hplace : m.importedFunctions[i.toNat]? = some f) (he : c.imports[i.toNat]? = some e) (himports : c.Imports (f, source) e) :
    CallSite c m (.call name args) (.callImport i)
  | call {name : String} {args : List Expr} {i : UInt32}
    (hr : c.revision = .v11 → ∀ f, m.function? name = some f → f.isImport = false) (hi : c.Refers m i name) :
    CallSite c m (.call name args) (.call i)
  | callIndirect {s : Signature} {selector : Expr} {args : List Expr} {t : UInt32} (ht : c.types[t.toNat]? = some s) :
    CallSite c m (.callIndirect s selector args) (.callIndirect t)

/-- An instruction that carries no name or signature is no call. -/
def Symbolic.Proper : Symbolic → Prop
  | plain i => i.isCall = false
  | call _ | callIndirect _ => True

namespace Expr

/-- The code of an expression has no calls but those that carry a name or a signature. -/
theorem proper_flatten (e : Expr) : ∀ s ∈ e.flatten, s.Proper := by
  induction e using childInduction with
  | step e ih =>
    intro s hs
    cases e with
    | cond c thenBody elseBody =>
      by_cases h : elseBody = [] <;>
        simp [flatten, flattenAll_eq_flatMap, h] at hs <;> grind [children, Symbolic.Proper, Instr.isCall]
    | _ =>
      simp [flatten, flattenAll_eq_flatMap] at hs
      grind [children, Symbolic.Proper, Instr.isCall]

/-- The code of a body has no calls but those that carry a name or a signature. -/
theorem proper_flattenAll (es : List Expr) : ∀ s ∈ flattenAll es, s.Proper := by
  intro s hs
  rw [flattenAll_eq_flatMap] at hs
  obtain ⟨e, -, hs⟩ := List.mem_flatMap.1 hs
  exact e.proper_flatten s hs

theorem isCall_eq (e : Expr) : e.isCall = e.callSymbol?.isSome := by
  cases e <;> rfl

/-- What is related to the calls that nodes make is related to the call nodes. -/
theorem forall₂_filter_isCall {β : Type} {R : Symbolic → β → Prop} {nodes : List Expr} {bs : List β}
    (h : List.Forall₂ R (nodes.filterMap callSymbol?) bs) :
    List.Forall₂ (fun e b => ∃ s, e.callSymbol? = some s ∧ R s b) (nodes.filter isCall) bs := by
  induction nodes generalizing bs with
  | nil => exact List.forall₂_nil_left_iff.1 h ▸ .nil
  | cons e nodes ih =>
    cases hs : e.callSymbol? with
    | none =>
      rw [List.filterMap_cons_none hs] at h
      rw [List.filter_cons_of_neg (by simp [isCall_eq, hs])]
      exact ih h
    | some s =>
      rw [List.filterMap_cons_some hs] at h
      rw [List.filter_cons_of_pos (by simp [isCall_eq, hs])]
      obtain ⟨b, bs, hb, hrest, rfl⟩ := List.forall₂_cons_left_iff.1 h
      exact .cons ⟨s, hs, hb⟩ (ih hrest)

/-- Code that is related to the layout of expressions, calls to calls, has its calls related to the call nodes. -/
theorem forall₂_callNodes {R : Symbolic → Instr → Prop} {es : List Expr} {code : List Instr}
    (hcall : ∀ s i, s.Proper → R s i → (s.isCall = true ↔ i.isCall = true)) (h : List.Forall₂ R (flattenAll es) code) :
    List.Forall₂ (fun e i => ∃ s, e.callSymbol? = some s ∧ R s i) ((es.flatMap postorder).filter isCall)
      (code.filter Instr.isCall) := by
  have hproper : List.Forall₂ (fun s i => s.Proper ∧ R s i) (flattenAll es) code :=
    (List.forall₂_and_left _ _).2 ⟨proper_flattenAll es, h⟩
  have hcalls := List.rel_filter (fun s i hi => hcall s i hi.1 hi.2) hproper
  rw [filter_isCall_flattenAll] at hcalls
  exact forall₂_filter_isCall (hcalls.imp fun s i hi => hi.2)

end Expr

theorem Revision.filter_isCall_closing (r : Revision) : r.closing.filter Instr.isCall = [] := by
  cases r <;> rfl

/-- An instruction is a call exactly if it does what a call stands for. -/
theorem Resolves.isCall_iff {m : Module} {r : Revision} {types : List Signature} {s : Symbolic} {i : Instr} (hs : s.Proper)
    (h : Resolves m r types s i) : s.isCall = true ↔ i.isCall = true := by
  cases h with
  | plain i =>
    have hi : i.isCall = false := hs
    simp [Symbolic.isCall, hi]
  | callImport | call | callIndirect => exact Iff.rfl

namespace Contents.Represents

variable {c : Contents} {m : Module} {settings : Settings} (h : c.Represents m settings)
include h

/-- The instruction that does what the call of a node stands for makes that call. -/
theorem callSite_of_resolves {e : Expr} {s : Symbolic} {i : Instr} (hs : e.callSymbol? = some s)
    (hi : Resolves m c.revision c.types s i) : c.CallSite m e i := by
  cases e with
  | call name args =>
    obtain rfl := Option.some.inj hs
    cases hi with
    | callImport hr hi =>
      obtain ⟨f, hf, hplace⟩ := hi
      obtain ⟨entity, hentity, hstands⟩ := forall₂_getElem? h.stands_imports hplace
      rw [List.getElem?_map] at hentity
      obtain ⟨e, he, rfl⟩ := Option.map_eq_some_iff.1 hentity
      obtain ⟨source, hsource, himports⟩ := hstands
      exact .callImport hr hf hsource hplace he himports
    | call hi =>
      refine .call (fun hr f hf => ?_) (h.refers_of_selects hi)
      -- under revision 0xB only defined functions are numbered, so the callee is one of them
      obtain ⟨g, hg, hplace⟩ := hi
      obtain rfl : f = g := Option.some.inj (hf.symm.trans hg)
      rw [hr] at hplace
      exact Module.isImport_of_mem_defined (List.mem_of_getElem? hplace)
  | callIndirect s' selector args =>
    obtain rfl := Option.some.inj hs
    cases hi with
    | callIndirect ht => exact .callIndirect ht
  | _ => nomatch hs

/-- The calls in the body of a function are its call nodes. -/
theorem forall₂_callSite {f : Function} {body : Body} (hbody : c.Implements m f body) :
    List.Forall₂ (c.CallSite m) f.callNodes (body.code.filter Instr.isCall) := by
  obtain ⟨-, code, hcode, hclosed⟩ := hbody
  rw [hclosed, List.filter_append, Revision.filter_isCall_closing, List.append_nil]
  refine (Expr.forall₂_callNodes (fun s i hs hi => hi.isCall_iff hs) hcode).imp fun e i he => ?_
  obtain ⟨s, hs, hi⟩ := he
  exact h.callSite_of_resolves hs hi

end Contents.Represents

/-- Every call in a rendered module reaches its callee: in each body the calls, in the order of the code, are the call nodes of the
function's expressions, in the order in which the calls happen, and each makes the call of its node. -/
theorem render_callSites {m : Module} {settings : Settings} {bytes : List UInt8} (h : m.render settings = .ok bytes) :
    ∃ c, Contents.ofBytes? bytes = some c ∧ c.revision = settings.revision ∧
      List.Forall₂ (fun f body => List.Forall₂ (c.CallSite m) f.callNodes (body.code.filter Instr.isCall)) m.defined c.bodies := by
  obtain ⟨c, hc, hrep⟩ := Module.render_represents h
  exact ⟨c, hc, hrep.revision, hrep.bodies.imp fun f body hbody => hrep.forall₂_callSite hbody⟩

/-- The calls of a module under revision 0xB, where the imported function has a call instruction of its own. -/
theorem render_callSites_sample :
    ∃ bytes c, Module.sample.render ⟨.v11, true⟩ = .ok bytes ∧ Contents.ofBytes? bytes = some c ∧ c.revision = .v11 ∧
      List.Forall₂ (fun f body => List.Forall₂ (c.CallSite Module.sample) f.callNodes (body.code.filter Instr.isCall))
        Module.sample.defined c.bodies := by
  obtain ⟨bytes, hbytes⟩ := Module.exists_render_sample .v11
  obtain ⟨c, hc, hr, hcalls⟩ := render_callSites hbytes
  exact ⟨bytes, c, hbytes, hc, hr, hcalls⟩

end WasmBinary
