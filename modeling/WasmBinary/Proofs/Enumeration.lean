import Mathlib.Algebra.GroupWithZero.Nat
import Mathlib.Data.List.Nodup
import WasmBinary.Proofs.Numbering

/-!
# How the functions of a module are numbered

A list of names is numbered in order when its names have the numbers 0, 1, 2, and so on, each number belongs to one name, and no other
name has a number (`NumberedInOrder`). A table that gives each name its place does so (`NameTable.Lists.numberedInOrder`). Numbering a
module takes its functions apart, the imported ones and the defined ones, and numbers each list or both in a row, as the revision
demands (`Numbering.Enumerates`). It does so for every module, as long as its distinct signatures can be numbered too; a single function
is enough to have one more of them than there are numbers (`Module.everySignature`).
-/

namespace WasmBinary

/-- Names are numbered from zero, in their order; what is not among them has no number. -/
structure NumberedInOrder (number : String → Except EncodeError UInt32) (names : List String) : Prop where
  /-- The numbers of the names are 0, 1, 2, and so on. -/
  inOrder : (names.map fun name => UInt32.toNat <$> number name) = (List.range names.length).map .ok
  /-- Each of these numbers is the number of one name. -/
  unique : ∀ k < names.length, ∃! name, UInt32.toNat <$> number name = .ok k
  /-- Any other name is unresolved. -/
  unresolved : ∀ name, name ∉ names → number name = .error (.unresolvedFunction name)

namespace NameTable.Lists

variable {t : NameTable} {names : List String} (h : Lists t names)
include h

/-- A name stands for the number of its place. -/
theorem number_getElem (hlen : names.length ≤ 0x100000000) {k : Nat} (hk : k < names.length) :
    UInt32.toNat <$> t.number names[k] = .ok k := by
  have hn : k.toUInt32.toNat = k := UInt32.toNat_ofNat_of_lt' (show k < 0x100000000 by omega)
  rw [EncodeError.map_eq_ok]
  refine ⟨k.toUInt32, h.number_eq_ok.2 ?_, hn⟩
  rw [hn, List.getElem?_eq_getElem hk]

theorem number_of_not_mem {name : String} (hname : name ∉ names) : t.number name = .error (.unresolvedFunction name) := by
  have hnone : t[name]? = none := by
    rw [Option.eq_none_iff_forall_ne_some]
    intro i hi
    exact hname (List.mem_of_getElem? ((h.get name i).1 hi))
  unfold NameTable.number
  rw [hnone]

/-- A table that gives each name its place numbers the names in order. -/
theorem numberedInOrder (hlen : names.length ≤ 0x100000000) : NumberedInOrder t.number names where
  inOrder := by
    apply List.ext_getElem
    · simp
    · intro k hk _
      rw [List.length_map] at hk
      simp only [List.getElem_map, List.getElem_range]
      exact h.number_getElem hlen hk
  unique := by
    intro k hk
    refine ⟨names[k], h.number_getElem hlen hk, ?_⟩
    intro name hname
    obtain ⟨i, hi, rfl⟩ := EncodeError.map_eq_ok.1 hname
    have hplace := h.number_eq_ok.1 hi
    rw [List.getElem?_eq_getElem hk] at hplace
    exact (Option.some.inj hplace).symm
  unresolved := fun _ hname => h.number_of_not_mem hname

end NameTable.Lists

/-! ## Modules -/

namespace Numbering

/-- The functions of a module are taken apart in its order, and numbered as the revision demands. -/
structure Enumerates (n : Numbering) (m : Module) (r : Revision) : Prop where
  /-- The imported functions are those that come from somewhere. -/
  imported : n.imported.map Prod.fst = m.functions.toList.filter fun f => f.importSource.isSome
  /-- Each imported function stands with the place that it comes from. -/
  sources : ∀ p ∈ n.imported, p.1.importSource = some p.2
  /-- The defined functions are those that come from nowhere. -/
  defined : n.defined = m.functions.toList.filter fun f => f.importSource.isNone
  /-- Under revision 0xC there is one sequence of numbers, for the imported functions and then the defined ones. -/
  together : r = .v12 → NumberedInOrder n.functionNumber ((n.imported.map Prod.fst ++ n.defined).map Function.name) ∧
    n.importNumber = n.functionNumber
  /-- Under revision 0xB there is a sequence for each, and no name is in both. -/
  apart : r = .v11 → NumberedInOrder n.functionNumber (n.defined.map Function.name) ∧
    NumberedInOrder n.importNumber ((n.imported.map Prod.fst).map Function.name) ∧
    ∀ name i j, n.functionNumber name = .ok i → n.importNumber name ≠ .ok j

/-- Where the numbers are shared, the numbers of imported functions are looked up among those of all functions. -/
theorem importNumbers_eq_of_combined {m : Module} {r : Revision} {n : Numbering} {log log' : Log}
    (h : (resolve m r).run log = .ok n log') (hr : r.combined = true) :
    n.references.importNumbers = n.references.functionNumbers := by
  obtain ⟨catalog, log₁, -, h⟩ := EncodeError.run_bind_eq_ok.1 h
  obtain ⟨imports, log₂, -, h⟩ := EncodeError.run_bind_eq_ok.1 h
  obtain ⟨functions, log₃, -, h⟩ := EncodeError.run_bind_eq_ok.1 h
  cases h
  exact if_pos hr

/-- Numbering fails if the distinct signatures of the module cannot be numbered. -/
theorem run_resolve_of_lt {m : Module} (r : Revision) (log : Log) (h : 0x100000000 < m.signatureUses.eraseDups.length) :
    ∃ log', (resolve m r).run log = .error (.outOfRange "signature index" 0x100000000) log' := by
  obtain ⟨log', hcatalog⟩ := Module.run_catalog_of_lt log h
  exact ⟨log', EncodeError.run_bind_eq_error.2 (.inl hcatalog)⟩

section

variable {n : Numbering} {m : Module} {r : Revision} (h : n.Describes m r)
include h

theorem Describes.map_imported : n.imported.map Prod.fst = m.importedFunctions := by
  rw [h.imported]
  rfl

/-- The functions that have a number are numbered in their order. -/
theorem Describes.functions_numberedInOrder (hm : m.functions.toList.length ≤ 0x100000000) :
    NumberedInOrder n.functionNumber ((m.numbered r).map Function.name) := by
  refine h.functionNumbers.numberedInOrder ?_
  rw [List.length_map]
  exact Nat.le_trans (m.length_numbered_le r) hm

/-- Where the imported functions are numbered apart, they are numbered in their order. -/
theorem Describes.imports_numberedInOrder (hr : r.combined = false) (hm : m.functions.toList.length ≤ 0x100000000) :
    NumberedInOrder n.importNumber (m.importedFunctions.map Function.name) := by
  refine (h.importNumbers hr).numberedInOrder ?_
  rw [List.length_map]
  exact Nat.le_trans m.length_importedFunctions_le hm

/-- Where functions are numbered apart, no name is that of an imported and of a defined function. -/
theorem Describes.importNumber_ne_ok (hr : r = .v11) {name : String} {i : UInt32} (hi : n.functionNumber name = .ok i)
    (j : UInt32) : n.importNumber name ≠ .ok j := by
  intro hj
  subst hr
  have hdefined := h.functionNumbers.number_eq_ok.1 hi
  have himported := (h.importNumbers rfl).number_eq_ok.1 hj
  have hnodup := m.importedFunctions_append_defined_nodup
  rw [List.map_append] at hnodup
  exact (List.nodup_append.1 hnodup).2.2 name (List.mem_of_getElem? himported) name (List.mem_of_getElem? hdefined) rfl

end

/-- The tables that are made for a module number its functions as its revision demands. -/
theorem enumerates_of_resolve {m : Module} {r : Revision} {n : Numbering} {log log' : Log}
    (hm : m.functions.toList.length ≤ 0x100000000) (hrun : (resolve m r).run log = .ok n log') : n.Enumerates m r := by
  have h := resolve_describes hrun
  refine ⟨?_, ?_, ?_, ?_, ?_⟩
  · rw [h.map_imported]
    exact m.importedFunctions_eq_filter
  · intro p hp
    rw [h.imported] at hp
    exact Module.importSource_of_mem_imported hp
  · rw [h.defined]
    simp [Module.defined, Function.isImport]
  · rintro rfl
    have hnumbers := h.functions_numberedInOrder hm
    refine ⟨?_, ?_⟩
    · rw [h.map_imported, h.defined]
      exact hnumbers
    · funext name
      unfold importNumber functionNumber
      rw [importNumbers_eq_of_combined hrun rfl]
  · rintro rfl
    have hnumbers := h.functions_numberedInOrder hm
    have himports := h.imports_numberedInOrder rfl hm
    refine ⟨?_, ?_, ?_⟩
    · rw [h.defined]
      exact hnumbers
    · rw [h.map_imported]
      exact himports
    · intro name i j hi
      exact h.importNumber_ne_ok rfl hi j

end Numbering

/-- Every module with fewer than 2^32 functions is numbered: its functions are taken apart in order, and each list of names, or both in
a row, has the numbers from zero on. Only more distinct signatures than 32 bits can number are in the way of it. -/
theorem resolve_enumerates {m : Module} (r : Revision) (log : Log) (hfunctions : m.functions.toList.length < 0x100000000) :
    if m.signatureUses.eraseDups.length ≤ 0x100000000 then
      ∃ n log', (Numbering.resolve m r).run log = .ok n log' ∧ n.Enumerates m r
    else ∃ log', (Numbering.resolve m r).run log = .error (.outOfRange "signature index" 0x100000000) log' := by
  split
  · rename_i hsignatures
    obtain ⟨n, log', hrun⟩ := Numbering.exists_resolve r log hfunctions hsignatures
    exact ⟨n, log', hrun, Numbering.enumerates_of_resolve (Nat.le_of_lt hfunctions) hrun⟩
  · rename_i hsignatures
    exact Numbering.run_resolve_of_lt r log (Nat.lt_of_not_le hsignatures)

/-- Two defined functions and two imported ones, one after the other in turn. -/
def Module.inTurn : Module :=
  let print := { Function.imported "print" (some "env") "print" with params := #[.i32] }
  let second := { Function.new "second" with result := some .i32 }
  { Module.empty with
    functions := (((FunctionTable.empty.insert (.new "first")).insert print).insert second).insert
      (.imported "abort" none "abort") }

/-- Under revision 0xC the imported functions come first, however they stand among the others; under revision 0xB the same functions are
numbered apart. -/
theorem resolve_enumerates_inTurn :
    ∃ n n' log log', (Numbering.resolve Module.inTurn .v12).run [] = .ok n log ∧
      (Numbering.resolve Module.inTurn .v11).run [] = .ok n' log' ∧
      (["print", "abort", "first", "second"].map fun name => UInt32.toNat <$> n.functionNumber name) = [.ok 0, .ok 1, .ok 2, .ok 3] ∧
      (["first", "second"].map fun name => UInt32.toNat <$> n'.functionNumber name) = [.ok 0, .ok 1] ∧
      n'.functionNumber "print" = .error (.unresolvedFunction "print") := by
  have hfunctions : Module.inTurn.functions.toList.length < 0x100000000 := by decide +kernel
  have hsignatures : Module.inTurn.signatureUses.eraseDups.length ≤ 0x100000000 := by decide +kernel
  have htogether := resolve_enumerates .v12 [] hfunctions
  have hapart := resolve_enumerates .v11 [] hfunctions
  rw [if_pos hsignatures] at htogether hapart
  obtain ⟨n, log, hrun, hn⟩ := htogether
  obtain ⟨n', log', hrun', hn'⟩ := hapart
  have hnames : (n.imported.map Prod.fst ++ n.defined).map Function.name = ["print", "abort", "first", "second"] := by
    rw [hn.imported, hn.defined]
    decide +kernel
  have hnames' : n'.defined.map Function.name = ["first", "second"] := by
    rw [hn'.defined]
    decide +kernel
  obtain ⟨hnumbers, -⟩ := hn.together rfl
  obtain ⟨hnumbers', -, -⟩ := hn'.apart rfl
  rw [hnames] at hnumbers
  rw [hnames'] at hnumbers'
  exact ⟨n, n', log, log', hrun, hrun', hnumbers.inOrder, hnumbers'.inOrder, hnumbers'.unresolved "print" (by decide)⟩

/-! ## More signatures than numbers -/

namespace ValueType

/-- Every list of `n` types. -/
def lists : Nat → List (List ValueType)
  | 0 => [[]]
  | n + 1 => (lists n).flatMap fun ts => all.map (· :: ts)

theorem length_lists (n : Nat) : (lists n).length = 4 ^ n := by
  induction n with
  | zero => rfl
  | succ n ih => simp [lists, all, List.length_flatMap, ih, Nat.pow_succ]

theorem nodup_lists (n : Nat) : (lists n).Nodup := by
  induction n with
  | zero => simp [lists]
  | succ n ih =>
    rw [lists, List.nodup_flatMap]
    refine ⟨fun ts _ => by simp [all], ih.imp ?_⟩
    intro ts ts' hne
    simp [all, List.disjoint_left, hne]

theorem length_of_mem_lists {n : Nat} {ts : List ValueType} (h : ts ∈ lists n) : ts.length = n := by
  induction n generalizing ts with
  | zero =>
    obtain rfl := List.mem_singleton.1 h
    rfl
  | succ n ih =>
    obtain ⟨rest, hrest, hts⟩ := List.mem_flatMap.1 h
    obtain ⟨t, -, rfl⟩ := List.mem_map.1 hts
    rw [List.length_cons, ih hrest]

end ValueType

namespace Module

/-- One function without parameters, which calls through the table with every signature of `n` parameters and no result. -/
def everySignature (n : Nat) : Module :=
  let calls := (ValueType.lists n).map fun ts => Expr.callIndirect ⟨none, ts⟩ (.i32Const 0) []
  { Module.empty with functions := FunctionTable.empty.insert { Function.new "f" with body := calls } }

theorem signatureUses_everySignature (n : Nat) :
    (everySignature n).signatureUses = ⟨none, []⟩ :: (ValueType.lists n).map (Signature.mk none) := by
  have hcall : ∀ ts : List ValueType, (Expr.callIndirect ⟨none, ts⟩ (.i32Const 0) []).indirectSignatures = [⟨none, ts⟩] := by
    intro ts
    simp [Expr.indirectSignatures_eq_children, Expr.children, Expr.indirectSignature?]
  have huses : (everySignature n).signatureUses = ⟨none, []⟩ ::
      ((ValueType.lists n).map fun ts => Expr.callIndirect ⟨none, ts⟩ (.i32Const 0) []).flatMap Expr.indirectSignatures :=
    List.append_nil _
  rw [huses, List.flatMap_map, List.map_eq_flatMap, funext hcall]

/-- With the signature of the function itself, these are all different. -/
theorem nodup_signatureUses_everySignature (n : Nat) : (everySignature (n + 1)).signatureUses.Nodup := by
  rw [signatureUses_everySignature, List.nodup_cons]
  constructor
  · intro h
    obtain ⟨ts, hts, heq⟩ := List.mem_map.1 h
    have hlength := ValueType.length_of_mem_lists hts
    obtain rfl : ts = [] := congrArg Signature.params heq
    nomatch hlength
  · refine (ValueType.nodup_lists _).map ?_
    intro ts ts' heq
    exact congrArg Signature.params heq

end Module

/-- A function without parameters that calls with all signatures of 16 parameters needs one number more than there are. -/
theorem resolve_everySignature :
    (Module.everySignature 16).functions.toList.length < 0x100000000 ∧
      ∀ r log, ¬ ∃ n log', (Numbering.resolve (Module.everySignature 16) r).run log = .ok n log' := by
  have hlength : 0x100000000 < (Module.everySignature 16).signatureUses.eraseDups.length := by
    rw [eraseDups_of_nodup (Module.nodup_signatureUses_everySignature 15), Module.signatureUses_everySignature, List.length_cons,
      List.length_map, ValueType.length_lists]
    decide
  have hone : (Module.everySignature 16).functions.toList.length = 1 := rfl
  refine ⟨by rw [hone]; decide, ?_⟩
  rintro r log ⟨n, log', hrun⟩
  obtain ⟨log₁, herror⟩ := Numbering.run_resolve_of_lt r log hlength
  rw [herror] at hrun
  nomatch hrun

end WasmBinary
