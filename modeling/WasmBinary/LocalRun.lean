import WasmBinary.ByteWriter

/-!
# Runs of locals

A body declares its locals as runs of neighbours of one type. Runs are as long as possible, so each list of types has one list of
runs.
-/

namespace WasmBinary

/-- A number of neighbouring locals of one type. -/
structure LocalRun where
  /-- How many there are. -/
  count : Nat
  /-- The type of each. -/
  type : ValueType
  deriving DecidableEq, Repr

namespace LocalRun

/-- Adds a local in front of a list of runs: to the first run if it has the same type, else as a run of its own. -/
def push (t : ValueType) : List LocalRun → List LocalRun
  | [] => [⟨1, t⟩]
  | run :: runs => if run.type = t then ⟨run.count + 1, t⟩ :: runs else ⟨1, t⟩ :: run :: runs

/-- The runs of a list of types, as long as possible. -/
def ofTypes (ts : List ValueType) : List LocalRun :=
  ts.foldr push []

/-- The types that runs stand for. -/
def expand (runs : List LocalRun) : List ValueType :=
  runs.flatMap fun run => List.replicate run.count run.type

/-- Writes a run: its length, then its type. -/
def write (run : LocalRun) : WriteM Unit := do
  WriteM.leb run.count.toUInt32
  WriteM.type run.type

/-- A pushed local comes first. -/
@[simp] theorem expand_push (t : ValueType) (runs : List LocalRun) : expand (push t runs) = t :: expand runs := by
  cases runs with
  | nil => rfl
  | cons run runs =>
    by_cases h : run.type = t
    · simp [push, h, expand, List.replicate_succ]
    · simp [push, h, expand]

/-- The runs of a list of types stand for that list. -/
@[simp] theorem expand_ofTypes (ts : List ValueType) : expand (ofTypes ts) = ts := by
  induction ts with
  | nil => rfl
  | cons t ts ih =>
    rw [ofTypes, List.foldr_cons, expand_push]
    exact congrArg (t :: ·) ih

end LocalRun

end WasmBinary
