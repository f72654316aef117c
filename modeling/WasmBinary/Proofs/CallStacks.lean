import Mathlib.Data.List.Dedup
import Mathlib.Data.List.Perm.Subperm
import WasmBinary.Problem

/-!
# Call stacks

A stack is told by going from a method to the first recorded call of it, from the caller to the first recorded call of that one, and so on
(`Walk`). Which calls the stack shows depends on nothing but the first call of each method, and the walk that gathers them is the only one
(`walk_chain`, `Walk.unique`). Until its last method it meets no method twice, and it leaves each of them by a recorded call, so it has no
more steps than there are methods that are called (`Walk.exists_earlier`, `Walk.length_le`). Graphs with the same first calls therefore
tell the same stacks.
-/

namespace WasmBinary

namespace CallHistory

/-- The graph of some calls, recorded one after another. -/
def record (calls : List Call) : CallHistory :=
  calls.foldl add empty

/-- The first of some calls that is a call of the method. -/
def firstCall? (calls : List Call) (m : Method) : Option Call :=
  calls.find? fun c => c.callee = m

/-- The first recorded caller of a method, and the line of that call. -/
def firstCaller? (calls : List Call) (m : Method) : Option (Method × Option SourceLine) :=
  (firstCall? calls m).map fun c => (c.caller, c.source)

theorem calls_foldl_add (calls : List Call) (g : CallHistory) : (calls.foldl add g).calls = g.calls ++ calls := by
  induction calls generalizing g with
  | nil => simp
  | cons c calls ih => simp [ih, add]

/-- The recorded calls are kept in order. -/
@[simp] theorem calls_record (calls : List Call) : (record calls).calls = calls :=
  calls_foldl_add calls empty

theorem head?_callsTo (g : CallHistory) (m : Method) : (g.callsTo m).head? = firstCall? g.calls m :=
  List.head?_filter

theorem mem_of_firstCall? {calls : List Call} {m : Method} {c : Call} (h : firstCall? calls m = some c) : c ∈ calls ∧ c.callee = m := by
  refine ⟨List.mem_of_find?_eq_some h, ?_⟩
  simpa using List.find?_some h

/-- Of a first call, all but the caller and the line is known. -/
theorem firstCall?_eq_of_firstCaller? {calls calls' : List Call} {m : Method} (h : firstCaller? calls m = firstCaller? calls' m) :
    firstCall? calls m = firstCall? calls' m := by
  unfold firstCaller? at h
  cases hc : firstCall? calls m with
  | none =>
    rw [hc] at h
    exact (Option.map_eq_none_iff.1 h.symm).symm
  | some c =>
    cases hd : firstCall? calls' m with
    | none => simp [hc, hd] at h
    | some d =>
      have hcallee : c.callee = d.callee := (mem_of_firstCall? hc).2.trans (mem_of_firstCall? hd).2.symm
      simp only [hc, hd, Option.map_some, Option.some.injEq, Prod.mk.injEq] at h
      rw [Option.some.injEq, Call.mk.injEq]
      exact ⟨h.1, hcallee, h.2⟩

/-- Taking away the calls of one method leaves the first call of any other. -/
theorem firstCall?_erase (g : CallHistory) {m x : Method} (h : x ≠ m) : firstCall? (g.erase m).calls x = firstCall? g.calls x := by
  unfold firstCall? erase
  rw [List.find?_filter]
  congr 1
  funext c
  by_cases hc : c.callee = x
  · simp [hc, h]
  · simp [hc]

/-! ## Walks -/

/-- The walk from a method outwards, after other methods were left behind: it takes the first call of the method it is at, if there is one,
and goes on from the caller, unless that one has been met before. -/
inductive Walk (calls : List Call) : List Method → Method → List Call → Prop where
  /-- Nothing calls the method. -/
  | root {left : List Method} {m : Method} (h : firstCall? calls m = none) : Walk calls left m []
  /-- The caller has been met. -/
  | again {left : List Method} {m : Method} {c : Call} (h : firstCall? calls m = some c) (hmet : c.caller ∈ m :: left) :
      Walk calls left m [c]
  /-- The caller is new. -/
  | on {left : List Method} {m : Method} {c : Call} {hops : List Call} (h : firstCall? calls m = some c) (hnew : c.caller ∉ m :: left)
      (rest : Walk calls (m :: left) c.caller hops) : Walk calls left m (c :: hops)

/-- There is one way to walk. -/
theorem Walk.unique {calls : List Call} {left : List Method} {m : Method} {hops hops' : List Call} (h : Walk calls left m hops)
    (h' : Walk calls left m hops') : hops = hops' := by
  induction h generalizing hops' with
  | root hnone =>
    cases h' with
    | root _ => rfl
    | again hsome _ | on hsome _ _ => simp [hnone] at hsome
  | again hsome hmet =>
    cases h' with
    | root hnone => simp [hnone] at hsome
    | again hsome' _ => rw [Option.some.inj (hsome.symm.trans hsome')]
    | on hsome' hnew _ =>
      obtain rfl := Option.some.inj (hsome.symm.trans hsome')
      exact absurd hmet hnew
  | on hsome hnew _ ih =>
    cases h' with
    | root hnone => simp [hnone] at hsome
    | again hsome' hmet =>
      obtain rfl := Option.some.inj (hsome.symm.trans hsome')
      exact absurd hmet hnew
    | on hsome' _ rest =>
      obtain rfl := Option.some.inj (hsome.symm.trans hsome')
      rw [ih rest]

/-- A walk looks at nothing but first calls. -/
theorem Walk.congr {calls calls' : List Call} (hcalls : ∀ x, firstCall? calls x = firstCall? calls' x) {left : List Method} {m : Method}
    {hops : List Call} (h : Walk calls left m hops) : Walk calls' left m hops := by
  induction h with
  | root h => exact .root ((hcalls _).symm.trans h)
  | again h hmet => exact .again ((hcalls _).symm.trans h) hmet
  | on h hnew _ ih => exact .on ((hcalls _).symm.trans h) hnew ih

theorem chain_of_none {g : CallHistory} {met : List Method} {m : Method} (h : firstCall? g.calls m = none) : g.chain met m = [] := by
  rw [← head?_callsTo] at h
  rw [chain]
  split
  · rfl
  · rename_i c hc
    simp [h] at hc

theorem chain_of_some {g : CallHistory} {met : List Method} {m : Method} {c : Call} (h : firstCall? g.calls m = some c) :
    g.chain met m = c :: if c.caller ∈ met then [] else (g.erase m).chain (c.caller :: met) c.caller := by
  rw [← head?_callsTo] at h
  rw [chain]
  split
  · rename_i hc
    simp [h] at hc
  · rename_i d hd
    obtain rfl : c = d := Option.some.inj (h.symm.trans hd)
    rfl

/-- The calls of a stack are gathered by walking. The graph may lack the calls of methods that were left behind, since these are not come
back to. -/
theorem walk_chain {calls : List Call} {g : CallHistory} {left : List Method} {m : Method} (hm : m ∉ left)
    (hg : ∀ x, x ∉ left → firstCall? g.calls x = firstCall? calls x) : Walk calls left m (g.chain (m :: left) m) := by
  -- the graph loses the calls of one method at each step
  induction hn : g.calls.length using Nat.strongRecOn generalizing g left m with
  | ind n ih =>
    subst hn
    cases hc : firstCall? g.calls m with
    | none =>
      rw [chain_of_none hc]
      exact .root ((hg m hm).symm.trans hc)
    | some c =>
      have hfirst : firstCall? calls m = some c := (hg m hm).symm.trans hc
      rw [chain_of_some hc]
      by_cases hmet : c.caller ∈ m :: left
      · rw [if_pos hmet]
        exact .again hfirst hmet
      · rw [if_neg hmet]
        refine .on hfirst hmet (ih _ (length_erase_lt ((head?_callsTo g m).trans hc)) hmet ?_ rfl)
        intro x hx
        simp only [List.mem_cons, not_or] at hx
        rw [firstCall?_erase g hx.1, hg x hx.2]

/-- The methods of a walk, the last one apart: each is left by its first call, none of them is met twice, and the last one is not called
or has been met before. -/
theorem Walk.exists_earlier {calls : List Call} {left : List Method} {m : Method} {hops : List Call} (h : Walk calls left m hops)
    (hnodup : (m :: left).Nodup) :
    ∃ earlier last, m :: hops.map Call.caller = earlier ++ [last] ∧ earlier.map (firstCall? calls) = hops.map some ∧
      (earlier ++ left).Nodup ∧ (firstCall? calls last = none ∨ last ∈ earlier ++ left) := by
  induction h with
  | @root left m h => exact ⟨[], m, rfl, rfl, (List.nodup_cons.1 hnodup).2, .inl h⟩
  | @again left m c h hmet => exact ⟨[m], c.caller, rfl, by simp [h], hnodup, .inr hmet⟩
  | @on left m c hops h hnew _ ih =>
    obtain ⟨earlier, last, hmethods, hfirst, hdistinct, hend⟩ := ih (List.nodup_cons.2 ⟨hnew, hnodup⟩)
    have hperm : (earlier ++ m :: left).Perm (m :: earlier ++ left) := List.perm_middle
    refine ⟨m :: earlier, last, ?_, ?_, hperm.nodup_iff.1 hdistinct, ?_⟩
    · rw [List.map_cons, hmethods, List.cons_append]
    · rw [List.map_cons, List.map_cons, h, hfirst]
    · rcases hend with hend | hend
      · exact .inl hend
      · exact .inr (hperm.mem_iff.1 hend)

/-- A walk has no more steps than there are methods that are called. -/
theorem Walk.length_le {calls : List Call} {m : Method} {hops : List Call} (h : Walk calls [] m hops) :
    hops.length ≤ (calls.map Call.callee).dedup.length := by
  obtain ⟨earlier, last, -, hfirst, hdistinct, -⟩ := h.exists_earlier (List.nodup_singleton m)
  rw [List.append_nil] at hdistinct
  have hcalled : earlier ⊆ (calls.map Call.callee).dedup := by
    intro x hx
    have hcall : firstCall? calls x ∈ hops.map some := by
      rw [← hfirst]
      exact List.mem_map_of_mem hx
    obtain ⟨c, -, hc⟩ := List.mem_map.1 hcall
    obtain ⟨hmem, rfl⟩ := mem_of_firstCall? hc.symm
    exact List.mem_dedup.2 (List.mem_map_of_mem hmem)
  have hlength : earlier.length = hops.length := by simpa using congrArg List.length hfirst
  rw [← hlength]
  exact (hdistinct.subperm hcalled).length_le

/-- The calls of the stack at a method, among all recorded calls. -/
theorem walk_record (calls : List Call) (m : Method) : Walk calls [] m ((record calls).chain [m] m) := by
  refine walk_chain List.not_mem_nil ?_
  intro x _
  rw [calls_record]

end CallHistory

open CallHistory

/-- The stack at a method is one line for the place itself and one line for each call of the walk along first calls, which comes to an end.
The methods on it are the method, its first caller, the first caller of that one, and so on, up to a method that nothing calls or to the
first one that has been met before. So only the last one can be there twice, and there is at most one line more than there are methods
that are called. -/
theorem stackText_firstCalls (calls : List Call) (m : Method) (source : Option SourceLine) :
    ∃ hops earlier last, Walk calls [] m hops ∧ m :: hops.map Call.caller = earlier ++ [last] ∧
      earlier.map (firstCall? calls) = hops.map some ∧ earlier.Nodup ∧ (firstCall? calls last = none ∨ last ∈ earlier) ∧
      ∃ lines, lines = ("\n    at " ++ locationText (some m) source) ::
          hops.map (fun c => "\n    at " ++ locationText (some c.caller) c.source) ∧
        lines.length ≤ (calls.map Call.callee).dedup.length + 1 ∧
        (record calls).stackText (some ⟨some m, source⟩) = String.join lines ∧
        ∀ severity text, Problem.report (record calls) ⟨severity, text, some ⟨some m, source⟩⟩ = text ++ String.join lines := by
  have hwalk := walk_record calls m
  obtain ⟨earlier, last, hmethods, hfirst, hdistinct, hend⟩ := hwalk.exists_earlier (List.nodup_singleton m)
  rw [List.append_nil] at hdistinct hend
  have htext : (record calls).stackText (some ⟨some m, source⟩) = String.join (("\n    at " ++ locationText (some m) source) ::
      ((record calls).chain [m] m).map (fun c => "\n    at " ++ locationText (some c.caller) c.source)) := by
    rw [String.join_cons]
    rfl
  refine ⟨_, earlier, last, hwalk, hmethods, hfirst, hdistinct, hend, _, rfl, ?_, htext, ?_⟩
  · simpa using hwalk.length_le
  · intro severity text
    rw [Problem.report, htext]

-- the method that is met again is shown once more
example : ((empty.add ⟨⟨"Main", "run"⟩, ⟨"Util", "parse"⟩, some ⟨some "app/Main.java", 12⟩⟩).add
    ⟨⟨"Util", "parse"⟩, ⟨"Main", "run"⟩, some ⟨none, 7⟩⟩).stackText (some ⟨some ⟨"Util", "parse"⟩, none⟩) =
    "\n    at Util.parse\n    at Main.run(Main.java:12)\n    at Util.parse(7)" := by
  decide +kernel

/-! ## What messages depend on -/

/-- Two graphs give every problem the same text, and lists of problems the same messages, in the same order and of the same severity. -/
def ReportAlike (g g' : CallHistory) : Prop :=
  (∀ p : Problem, p.report g = p.report g') ∧ ∀ ps, Problem.reportAll g ps = Problem.reportAll g' ps

namespace CallHistory

/-- Graphs with the same first calls tell the same stacks. -/
theorem stackText_congr {calls calls' : List Call} (h : ∀ x, firstCall? calls x = firstCall? calls' x) (place : Option Place) :
    (record calls).stackText place = (record calls').stackText place := by
  have hchain : ∀ m, (record calls).chain [m] m = (record calls').chain [m] m := by
    intro m
    exact ((walk_record calls m).congr h).unique (walk_record calls' m)
  rcases place with _ | ⟨_ | m, source⟩
  · rfl
  · rfl
  · simp [stackText, hchain m]

theorem reportAlike_of_firstCall? {calls calls' : List Call} (h : ∀ x, firstCall? calls x = firstCall? calls' x) :
    ReportAlike (record calls) (record calls') := by
  have hreport : ∀ p : Problem, p.report (record calls) = p.report (record calls') := by
    intro p
    rw [Problem.report, Problem.report, stackText_congr h]
  refine ⟨hreport, fun ps => ?_⟩
  simp [Problem.reportAll, hreport]

/-- A call of a method that has been called before is not the first one. -/
theorem firstCall?_insert {before after : List Call} {c : Call} (h : ∃ d ∈ before, d.callee = c.callee) (x : Method) :
    firstCall? (before ++ c :: after) x = firstCall? (before ++ after) x := by
  unfold firstCall?
  rw [List.find?_append, List.find?_append]
  by_cases hc : c.callee = x
  · obtain ⟨d, hd, hcallee⟩ := h
    have hfound : (before.find? fun c => c.callee = x).isSome := by
      rw [List.find?_isSome]
      exact ⟨d, hd, by simp [hcallee, hc]⟩
    rw [Option.or_of_isSome hfound, Option.or_of_isSome hfound]
  · rw [List.find?_cons_of_neg (by simpa using hc)]

/-- The first call of a method is the first of the calls of it. -/
theorem firstCall?_eq_of_filter {calls calls' : List Call} {x : Method}
    (h : (calls.filter fun c => c.callee = x) = calls'.filter fun c => c.callee = x) : firstCall? calls x = firstCall? calls' x := by
  unfold firstCall?
  rw [← List.head?_filter, ← List.head?_filter, h]

end CallHistory

/-- The messages about problems depend on nothing but the first recorded caller of each method and the line of that call: histories that
agree on these give the same messages. So it makes no difference if further calls of a method that has been called are recorded, nor in
which order calls of different methods are recorded, as long as the calls of each method stay in order. -/
theorem report_firstCalls :
    (∀ calls calls', (∀ x, firstCaller? calls x = firstCaller? calls' x) → ReportAlike (record calls) (record calls')) ∧
      (∀ before c after, (∃ d ∈ before, d.callee = c.callee) →
        ReportAlike (record (before ++ c :: after)) (record (before ++ after))) ∧
      ∀ calls calls' : List Call, (∀ x, (calls.filter fun c => c.callee = x) = calls'.filter fun c => c.callee = x) →
        ReportAlike (record calls) (record calls') := by
  refine ⟨fun calls calls' h => ?_, fun before c after h => ?_, fun calls calls' h => ?_⟩
  · exact reportAlike_of_firstCall? fun x => firstCall?_eq_of_firstCaller? (h x)
  · exact reportAlike_of_firstCall? (firstCall?_insert h)
  · exact reportAlike_of_firstCall? fun x => firstCall?_eq_of_filter (h x)

namespace CallHistory

/-- A call of `Util.parse`. -/
def parseCall : Call := ⟨⟨"Main", "run"⟩, ⟨"Util", "parse"⟩, some ⟨some "app/Main.java", 12⟩⟩

/-- Another call of `Util.parse`. -/
def laterParseCall : Call := ⟨⟨"Other", "call"⟩, ⟨"Util", "parse"⟩, none⟩

/-- A call by which `Util.parse` comes back to itself. -/
def runCall : Call := ⟨⟨"Util", "parse"⟩, ⟨"Main", "run"⟩, some ⟨none, 7⟩⟩

end CallHistory

/-- The later call of a method makes no difference, wherever it is recorded. -/
theorem report_firstCalls_mutual :
    ((∀ x, firstCaller? [parseCall, laterParseCall, runCall] x = firstCaller? [runCall, parseCall] x) ∧
        ReportAlike (record [parseCall, laterParseCall, runCall]) (record [runCall, parseCall])) ∧
      ((∃ d ∈ [parseCall], d.callee = laterParseCall.callee) ∧
        ReportAlike (record [parseCall, laterParseCall, runCall]) (record [parseCall, runCall])) ∧
      (∀ x, ([parseCall, laterParseCall, runCall].filter fun c => c.callee = x) =
          [runCall, parseCall, laterParseCall].filter fun c => c.callee = x) ∧
        ReportAlike (record [parseCall, laterParseCall, runCall]) (record [runCall, parseCall, laterParseCall]) := by
  obtain ⟨hfirst, hfurther, horder⟩ := report_firstCalls
  have hsame : ∀ x, firstCaller? [parseCall, laterParseCall, runCall] x = firstCaller? [runCall, parseCall] x := by
    intro x
    by_cases hparse : parseCall.callee = x
    · subst hparse
      decide
    · have hlater : laterParseCall.callee ≠ x := hparse
      by_cases hrun : runCall.callee = x <;> simp [firstCaller?, firstCall?, hparse, hlater, hrun]
  have hcalled : ∃ d ∈ [parseCall], d.callee = laterParseCall.callee := by decide
  have hkept : ∀ x, ([parseCall, laterParseCall, runCall].filter fun c => c.callee = x) =
      [runCall, parseCall, laterParseCall].filter fun c => c.callee = x := by
    intro x
    by_cases hparse : parseCall.callee = x
    · subst hparse
      decide
    · have hlater : laterParseCall.callee ≠ x := hparse
      by_cases hrun : runCall.callee = x <;> simp [hparse, hlater, hrun]
  exact ⟨⟨hsame, hfirst _ _ hsame⟩, ⟨hcalled, hfurther [parseCall] laterParseCall [runCall] hcalled⟩, hkept, horder _ _ hkept⟩

end WasmBinary
