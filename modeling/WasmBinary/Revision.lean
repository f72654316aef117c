/-!
# Binary revisions

The two revisions of the binary format that a module can be rendered for. They differ in how sections are framed and in how
functions are numbered: in the earlier one imported functions have numbers of their own, in the later one they come first in the
one sequence of all functions.
-/

namespace WasmBinary

/-- A revision of the binary format. -/
inductive Revision where
  /-- Revision 0xB: named sections, imports numbered apart. -/
  | v11
  /-- Revision 0xC: numbered sections, imports numbered first. -/
  | v12
  deriving DecidableEq, Repr

namespace Revision

instance : Inhabited Revision := ⟨v12⟩

/-- The number that stands for the revision in a binary's header. -/
def tag : Revision → UInt32
  | v11 => 0xB
  | v12 => 0xC

/-- The revision that a number stands for, if it stands for one. -/
def ofTag? (tag : UInt32) : Option Revision :=
  if tag = 0xB then some v11
  else if tag = 0xC then some v12
  else none

/-- Whether imported and defined functions are numbered in one sequence. -/
def combined : Revision → Bool
  | v11 => false
  | v12 => true

/-- A number is read back as the revision it was written for. -/
@[simp] theorem ofTag?_tag (r : Revision) : ofTag? r.tag = some r := by
  cases r <;> decide

end Revision

end WasmBinary
