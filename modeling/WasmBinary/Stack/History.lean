import WasmBinary.Stack.Location

/-!
# Call graphs and call stacks

A call graph records which method calls which, and from which line. A stack is told from it by going from a method to the first
recorded call of it, from there to the first recorded call of the caller, and so on, until a method has no caller or a caller has
been met before; that one is still shown.
-/

namespace WasmBinary

/-- A recorded call. -/
structure Call where
  /-- The method that calls. -/
  caller : Method
  /-- The method that is called. -/
  callee : Method
  /-- The line of the call, if it is known. -/
  source : Option SourceLine
  deriving DecidableEq, Repr, Inhabited

/-- The recorded calls, oldest first. -/
structure CallHistory where
  /-- The calls, in the order in which they were recorded. -/
  calls : List Call
  deriving DecidableEq, Repr, Inhabited

namespace CallHistory

/-- The graph without calls. -/
def empty : CallHistory := ⟨[]⟩

/-- Records a call. -/
def add (g : CallHistory) (c : Call) : CallHistory :=
  ⟨g.calls ++ [c]⟩

/-- The calls of a method, oldest first. -/
def callsTo (g : CallHistory) (m : Method) : List Call :=
  g.calls.filter fun c => c.callee = m

/-- The graph without the calls of a method. -/
def erase (g : CallHistory) (m : Method) : CallHistory :=
  ⟨g.calls.filter fun c => c.callee ≠ m⟩

/-- Taking away the calls of a called method leaves fewer. -/
theorem length_erase_lt {g : CallHistory} {m : Method} {c : Call} (h : (g.callsTo m).head? = some c) :
    (g.erase m).calls.length < g.calls.length := by
  have hc : c ∈ g.calls ∧ c.callee = m := by
    have := List.mem_of_mem_head? h
    simpa [callsTo] using this
  refine List.length_filter_lt_length_iff_exists.mpr ⟨c, hc.1, ?_⟩
  simp [hc.2]

/-- The calls from a method outwards: the first call of it, the first call of that caller, and so on. The walk ends at a method
that nothing calls, or with the first caller that is among the `met` ones. A method left behind is not come back to, so its calls
are not needed any more. -/
def chain (g : CallHistory) (met : List Method) (m : Method) : List Call :=
  match _h : (g.callsTo m).head? with
  | none => []
  | some c => c :: if c.caller ∈ met then [] else (g.erase m).chain (c.caller :: met) c.caller
termination_by g.calls.length
decreasing_by exact length_erase_lt _h

/-- One line of a stack. -/
def frameText (method : Option Method) (source : Option SourceLine) : String :=
  "\n    at " ++ locationText method source

/-- The stack of calls that lead to a location; nothing without one. -/
def stackText (g : CallHistory) : Option Place → String
  | none => ""
  | some l =>
    let callers := match l.method with
      | some m => g.chain [m] m
      | none => []
    frameText l.method l.source ++ String.join (callers.map fun c => frameText (some c.caller) c.source)

end CallHistory

end WasmBinary
