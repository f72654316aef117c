import WasmBinary.Numbering
import WasmBinary.Proofs.Collector

/-!
# The numbers of a module

Under each revision the functions of a module stand in one list, `Module.numbered`, and a function's number is its place there:
the imported functions and then the defined ones where the numbers are shared, the defined ones alone where they are not.
`Numbering.Describes` says this of the tables that rendering looks names up in, and `Numbering.resolve` makes tables of which it
holds (`resolve_describes`). It fails only if there are too many functions or signatures for 32 bits (`exists_resolve`).
-/

namespace WasmBinary

namespace Module

/-- The imported functions, in order. -/
def importedFunctions (m : Module) : List Function := m.imported.map Prod.fst

/-- The functions that have a number under a revision, in the order of their numbers. -/
def numbered (m : Module) (r : Revision) : List Function :=
  if r.combined then m.importedFunctions ++ m.defined else m.defined

theorem importedFunctions_eq_filter (m : Module) : m.importedFunctions = m.functions.toList.filter Function.isImport := by
  unfold importedFunctions imported
  induction m.functions.toList with
  | nil => rfl
  | cons f fs ih =>
    cases h : f.importSource with
    | none => simpa [Function.isImport, h] using ih
    | some source => simpa [Function.isImport, h] using ih

theorem importSource_of_mem_imported {m : Module} {p : Function × ImportSource} (h : p ∈ m.imported) :
    p.1.importSource = some p.2 := by
  obtain ⟨f, -, hf⟩ := List.mem_filterMap.1 h
  obtain ⟨source, hsource, rfl⟩ := Option.map_eq_some_iff.1 hf
  exact hsource

theorem mem_of_mem_imported {m : Module} {p : Function × ImportSource} (h : p ∈ m.imported) : p.1 ∈ m.functions.toList := by
  obtain ⟨f, hf, hmap⟩ := List.mem_filterMap.1 h
  obtain ⟨source, -, rfl⟩ := Option.map_eq_some_iff.1 hmap
  exact hf

theorem isImport_of_mem_defined {m : Module} {f : Function} (h : f ∈ m.defined) : f.isImport = false := by
  simpa using (List.mem_filter.1 h).2

/-- In a list without repeated names, a name finds the function that has it. -/
theorem find?_name_of_mem {fs : List Function} (hnodup : (fs.map Function.name).Nodup) {f : Function} (hf : f ∈ fs) :
    fs.find? (·.name = f.name) = some f := by
  induction fs with
  | nil => nomatch hf
  | cons g gs ih =>
    obtain ⟨hg, hgs⟩ := List.nodup_cons.1 hnodup
    rcases List.mem_cons.1 hf with rfl | hf
    · rw [List.find?_cons_of_pos (by simp)]
    · have hne : g.name ≠ f.name := fun e => hg (e ▸ List.mem_map_of_mem hf)
      rw [List.find?_cons_of_neg (by simpa using hne), ih hgs hf]

/-- A name finds a function exactly if the function is in the module and has the name. -/
theorem function?_eq_some {m : Module} {name : String} {f : Function} :
    m.function? name = some f ↔ f ∈ m.functions.toList ∧ f.name = name := by
  unfold function? FunctionTable.get?
  constructor
  · intro h
    exact ⟨List.mem_of_find?_eq_some h, by simpa using List.find?_some h⟩
  · rintro ⟨hf, rfl⟩
    exact find?_name_of_mem m.functions.names_nodup hf

/-- Taken apart and put together again, the functions of a module are the same up to order. -/
theorem importedFunctions_append_defined_perm (m : Module) :
    (m.importedFunctions ++ m.defined).Perm m.functions.toList := by
  rw [importedFunctions_eq_filter]
  exact List.filter_append_perm Function.isImport m.functions.toList

/-- No two functions have one name, whether they are imported or not. -/
theorem importedFunctions_append_defined_nodup (m : Module) :
    ((m.importedFunctions ++ m.defined).map Function.name).Nodup :=
  (m.importedFunctions_append_defined_perm.map Function.name).nodup_iff.2 m.functions.names_nodup

/-- The functions with a number are functions of the module. -/
theorem mem_of_mem_numbered {m : Module} {r : Revision} {f : Function} (h : f ∈ m.numbered r) :
    f ∈ m.functions.toList := by
  rw [← m.importedFunctions_append_defined_perm.mem_iff]
  unfold numbered at h
  split at h
  · exact h
  · exact List.mem_append_right _ h

theorem length_importedFunctions_le (m : Module) : m.importedFunctions.length ≤ m.functions.toList.length := by
  rw [importedFunctions_eq_filter]
  exact List.length_filter_le _ _

/-- No more functions have a number than there are. -/
theorem length_numbered_le (m : Module) (r : Revision) : (m.numbered r).length ≤ m.functions.toList.length := by
  cases r with
  | v11 => exact List.length_filter_le _ _
  | v12 => exact Nat.le_of_eq m.importedFunctions_append_defined_perm.length_eq

/-- `i` is the place, in a list of functions, of the function that a name stands for. -/
def Selects (m : Module) (fs : List Function) (i : UInt32) (name : String) : Prop :=
  ∃ f, m.function? name = some f ∧ fs[i.toNat]? = some f

/-- A name selects the place where it stands in the list of names. -/
theorem selects_iff {m : Module} {fs : List Function} (hfs : ∀ f ∈ fs, f ∈ m.functions.toList) {i : UInt32} {name : String} :
    m.Selects fs i name ↔ (fs.map Function.name)[i.toNat]? = some name := by
  rw [List.getElem?_map, Option.map_eq_some_iff]
  constructor
  · rintro ⟨f, hf, hi⟩
    exact ⟨f, hi, (function?_eq_some.1 hf).2⟩
  · rintro ⟨f, hi, hname⟩
    exact ⟨f, function?_eq_some.2 ⟨hfs f (List.mem_of_getElem? hi), hname⟩, hi⟩

end Module

/-! ## Tables of names -/

namespace NameTable

/-- The table gives each name of a list its place, and knows no other name. -/
structure Lists (t : NameTable) (names : List String) : Prop where
  /-- There are as many entries as names. -/
  size : t.size = names.length
  /-- The number of a name is its place. -/
  get : ∀ name (i : UInt32), t[name]? = some i ↔ names[i.toNat]? = some name

theorem lists_empty : Lists ∅ [] where
  size := rfl
  get name i := by simp

/-- Adding a new name lists it after the others. -/
theorem Lists.add {what : String} {t t' : NameTable} {names : List String} {name : String} (h : Lists t names)
    (hnew : name ∉ names) (hadd : t.add what name = .ok t') : Lists t' (names ++ [name]) := by
  unfold NameTable.add at hadd
  obtain ⟨n, hn, heq⟩ := EncodeError.bind_eq_ok.1 hadd
  obtain ⟨-, hsize⟩ := narrow_eq_ok hn
  rw [h.size] at hsize
  cases heq
  have hget : t[name]? = none := by
    rw [Option.eq_none_iff_forall_ne_some]
    intro i hi
    exact hnew (List.mem_of_getElem? ((h.get name i).1 hi))
  refine ⟨?_, ?_⟩
  · have hmem : ¬(t.contains name = true) := by
      rw [Std.TreeMap.contains_eq_isSome_getElem?, hget]
      simp
    rw [Std.TreeMap.size_insert, if_neg hmem, h.size, List.length_append, List.length_singleton]
  · intro k i
    rw [Std.TreeMap.getElem?_insert, List.getElem?_append]
    by_cases hk : name = k
    · subst hk
      rw [if_pos (by simp)]
      constructor
      · intro hi
        cases hi
        rw [if_neg (by omega), hsize, Nat.sub_self]
        rfl
      · intro hi
        split_ifs at hi with hlt
        · exact absurd (List.mem_of_getElem? hi) hnew
        · have hlast : i.toNat - names.length = 0 := by
            have := (List.getElem?_eq_some_iff.1 hi).1
            simpa using this
          rw [Option.some.injEq, ← UInt32.toNat_inj]
          omega
    · rw [if_neg (by simpa using hk), h.get]
      split_ifs with hlt
      · rfl
      · rw [List.getElem?_eq_none (by omega)]
        constructor
        · exact fun hi => nomatch hi
        · intro hi
          have hmem := List.mem_of_getElem? hi
          rw [List.mem_singleton] at hmem
          exact absurd hmem.symm hk

/-- Adding new names lists them in order after the others. -/
theorem Lists.addAll {what : String} {t t' : NameTable} {names new : List String} (h : Lists t names)
    (hnodup : (names ++ new).Nodup) (hadd : t.addAll what new = .ok t') : Lists t' (names ++ new) := by
  induction new generalizing t names with
  | nil =>
    cases hadd
    rwa [List.append_nil]
  | cons name new ih =>
    unfold NameTable.addAll at hadd
    rw [List.foldlM_cons] at hadd
    obtain ⟨t₁, h₁, hrest⟩ := EncodeError.bind_eq_ok.1 hadd
    have hnew : name ∉ names := by
      intro hmem
      exact (List.nodup_append.1 hnodup).2.2 name hmem name List.mem_cons_self rfl
    have happ : names ++ name :: new = (names ++ [name]) ++ new := by simp
    rw [happ] at hnodup ⊢
    exact ih (h.add hnew h₁) hnodup hrest

theorem add_of_lt (what : String) {t : NameTable} (h : t.size < 0x100000000) (name : String) :
    t.add what name = .ok (t.insert name t.size.toUInt32) := by
  unfold add
  rw [narrow_of_lt _ h]
  rfl

theorem add_of_le (what : String) {t : NameTable} (h : 0x100000000 ≤ t.size) (name : String) :
    t.add what name = .error (.outOfRange what t.size) := by
  unfold add narrow
  rw [if_neg (Nat.not_lt_of_le h)]
  rfl

/-- Names can be added as long as the table fits in 32 bits. -/
theorem exists_addAll (what : String) {t : NameTable} {names new : List String} (h : Lists t names)
    (hnodup : (names ++ new).Nodup) (hlen : (names ++ new).length < 0x100000000) : ∃ t', t.addAll what new = .ok t' := by
  induction new generalizing t names with
  | nil => exact ⟨t, rfl⟩
  | cons name new ih =>
    have hnew : name ∉ names := by
      intro hmem
      exact (List.nodup_append.1 hnodup).2.2 name hmem name List.mem_cons_self rfl
    have happ : names ++ name :: new = (names ++ [name]) ++ new := by simp
    rw [happ] at hnodup hlen
    have hsize : t.size < 0x100000000 := by
      rw [h.size]
      simp only [List.length_append, List.length_singleton] at hlen
      omega
    have hadd := add_of_lt what hsize name
    obtain ⟨t', ht'⟩ := ih (h.add hnew hadd) hnodup hlen
    refine ⟨t', ?_⟩
    unfold NameTable.addAll
    rw [List.foldlM_cons, hadd]
    exact ht'

theorem number_eq_ok {t : NameTable} {name : String} {i : UInt32} : t.number name = .ok i ↔ t[name]? = some i := by
  unfold number
  cases t[name]? <;> simp

/-- A name has a number exactly if it is listed, and its number is its place. -/
theorem Lists.number_eq_ok {t : NameTable} {names : List String} (h : Lists t names) {name : String} {i : UInt32} :
    t.number name = .ok i ↔ names[i.toNat]? = some name := by
  rw [NameTable.number_eq_ok, h.get]

end NameTable

/-! ## All numbers of a module -/

namespace Numbering

/-- The tables hold the numbers of a module under a revision. -/
structure Describes (n : Numbering) (m : Module) (r : Revision) : Prop where
  /-- The tables are for the revision. -/
  revision : n.revision = r
  /-- The imported functions are those of the module. -/
  imported : n.imported = m.imported
  /-- The defined functions are those of the module. -/
  defined : n.defined = m.defined
  /-- Signatures are numbered in the order of their first use. -/
  signatures : n.signatures = m.signatureUses.eraseDups
  /-- Functions are numbered in the order of the revision. -/
  functionNumbers : n.references.functionNumbers.Lists ((m.numbered r).map Function.name)
  /-- Imported functions are numbered from zero where they are numbered apart. -/
  importNumbers : r.combined = false → n.references.importNumbers.Lists (m.importedFunctions.map Function.name)

/-- The tables that are made for a module hold its numbers. -/
theorem resolve_describes {m : Module} {r : Revision} {n : Numbering} {log log' : Log}
    (h : (resolve m r).run log = .ok n log') : n.Describes m r := by
  obtain ⟨catalog, log₁, hcatalog, h⟩ := EncodeError.run_bind_eq_ok.1 h
  obtain ⟨imports, log₂, himports, h⟩ := EncodeError.run_bind_eq_ok.1 h
  obtain ⟨functions, log₃, hfunctions, h⟩ := EncodeError.run_bind_eq_ok.1 h
  obtain ⟨himports, -⟩ := EncodeError.run_lift_eq_ok.1 himports
  obtain ⟨hfunctions, -⟩ := EncodeError.run_lift_eq_ok.1 hfunctions
  cases h
  have hnodup := m.importedFunctions_append_defined_nodup
  rw [List.map_append] at hnodup
  have hnames : m.importedFunctions.map Function.name = m.imported.map fun p => p.1.name := List.map_map
  have hI : imports.Lists (m.importedFunctions.map Function.name) := by
    rw [hnames]
    refine NameTable.lists_empty.addAll ?_ himports
    rw [← hnames]
    exact (List.nodup_append.1 hnodup).1
  have hF : functions.Lists ((m.numbered r).map Function.name) := by
    cases r with
    | v11 => exact NameTable.lists_empty.addAll (List.nodup_append.1 hnodup).2.1 hfunctions
    | v12 =>
      show functions.Lists ((m.importedFunctions ++ m.defined).map Function.name)
      rw [List.map_append]
      exact hI.addAll hnodup hfunctions
  exact {
    revision := rfl
    imported := rfl
    defined := rfl
    signatures := Module.run_catalog hcatalog
    functionNumbers := hF
    importNumbers := fun hr => by
      show (if r.combined then functions else imports).Lists _
      rw [hr]
      exact hI }

/-- A module whose functions and distinct signatures can be numbered in 32 bits has numbers. -/
theorem exists_resolve {m : Module} (r : Revision) (log : Log) (hfunctions : m.functions.toList.length < 0x100000000)
    (hsignatures : m.signatureUses.eraseDups.length ≤ 0x100000000) :
    ∃ n log', (resolve m r).run log = .ok n log' := by
  obtain ⟨catalog, log₁, hcatalog⟩ := Module.run_catalog_of_le log hsignatures
  have hnodup := m.importedFunctions_append_defined_nodup
  have hlen := m.importedFunctions_append_defined_perm.length_eq
  rw [List.map_append] at hnodup
  rw [List.length_append] at hlen
  have hnames : m.importedFunctions.map Function.name = m.imported.map fun p => p.1.name := List.map_map
  obtain ⟨imports, himports⟩ := NameTable.exists_addAll "import index" NameTable.lists_empty
    (List.nodup_append.1 hnodup).1 (by rw [List.nil_append, List.length_map]; omega)
  have hI := NameTable.lists_empty.addAll (List.nodup_append.1 hnodup).1 himports
  have hF : ∃ functions, NameTable.addAll "function index" (if r.combined then imports else ∅) (m.defined.map Function.name) =
      .ok functions := by
    cases r with
    | v11 =>
      refine NameTable.exists_addAll _ NameTable.lists_empty (List.nodup_append.1 hnodup).2.1 ?_
      rw [List.nil_append, List.length_map]
      omega
    | v12 =>
      refine NameTable.exists_addAll _ hI hnodup ?_
      rw [List.nil_append, List.length_append, List.length_map, List.length_map]
      omega
  obtain ⟨functions, hfunctions⟩ := hF
  rw [hnames] at himports
  exact ⟨_, _, EncodeError.run_bind_eq_ok.2 ⟨catalog, log₁, hcatalog, EncodeError.run_bind_eq_ok.2
    ⟨imports, log₁, EncodeError.run_lift_eq_ok.2 ⟨himports, rfl⟩, EncodeError.run_bind_eq_ok.2
      ⟨functions, log₁, EncodeError.run_lift_eq_ok.2 ⟨hfunctions, rfl⟩, rfl⟩⟩⟩⟩

section

variable {n : Numbering} {m : Module} {r : Revision} (h : n.Describes m r)
include h

/-- The number of a function is the place of the function that the name stands for. -/
theorem Describes.functionNumber_eq_ok {name : String} {i : UInt32} :
    n.functionNumber name = .ok i ↔ m.Selects (m.numbered r) i name := by
  rw [Module.selects_iff fun f hf => Module.mem_of_mem_numbered hf]
  exact h.functionNumbers.number_eq_ok

end

end Numbering

end WasmBinary
