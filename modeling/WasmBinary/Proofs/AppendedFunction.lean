import WasmBinary.Proofs.Contents
import WasmBinary.Proofs.Enumeration
import WasmBinary.Proofs.GrowingReferences
import WasmBinary.Proofs.Resolution

/-!
# Adding a definition

A function that is new and not imported comes last in its module. So its uses of signatures come after all others
(`signatureUses_insertFunction`), and its name gets the next number (`plainTables_insertFunction`). The tables of the module extend those
that it had before (`extends_insertFunction`), and then every number stays what it was, and so do the bytes of every body that could be
encoded (`References.Extends.keeps`).
-/

namespace WasmBinary

/-! ## The place of a new function -/

namespace FunctionTable

theorem place_of_new {f : Function} {fs : List Function} (h : ∀ g ∈ fs, g.name ≠ f.name) : place f fs = fs ++ [f] := by
  induction fs with
  | nil => rfl
  | cons g gs ih =>
    obtain ⟨hg, hgs⟩ := List.forall_mem_cons.1 h
    rw [place, if_neg hg, ih hgs, List.cons_append]

/-- A function of a new name comes after the others. -/
theorem toList_insert_of_new {t : FunctionTable} {f : Function} (h : t.get? f.name = none) :
    (t.insert f).toList = t.toList ++ [f] :=
  place_of_new (by simpa [get?] using h)

end FunctionTable

namespace Module

section

variable {m : Module} {f : Function} (hnew : m.function? f.name = none)
include hnew

/-- A new function uses its signatures after those of the others. -/
theorem signatureUses_insertFunction :
    (m.insertFunction f).signatureUses = m.signatureUses ++ (f.signature :: f.body.flatMap Expr.indirectSignatures) := by
  show (m.functions.insert f).toList.flatMap _ = _
  rw [FunctionTable.toList_insert_of_new hnew, List.flatMap_append, List.flatMap_singleton]
  rfl

variable (hf : f.isImport = false)
include hf

theorem imported_insertFunction : (m.insertFunction f).imported = m.imported := by
  have hsource : f.importSource = none := by simpa [Function.isImport] using hf
  show (m.functions.insert f).toList.filterMap _ = _
  rw [FunctionTable.toList_insert_of_new hnew, List.filterMap_append]
  simp [hsource, imported]

theorem defined_insertFunction : (m.insertFunction f).defined = m.defined ++ [f] := by
  show (m.functions.insert f).toList.filter _ = _
  rw [FunctionTable.toList_insert_of_new hnew, List.filter_append]
  simp [hf, defined]

/-- The name of a new definition gets the next number, after all others are given. -/
theorem plainTables_insertFunction (r : Revision) :
    (m.insertFunction f).plainTables r = (do
      let tables ← m.plainTables r
      let functions ← NameTable.add "function index" tables.1 f.name
      return (functions, if r.combined then functions else tables.2)) := by
  unfold plainTables NameTable.addAll
  rw [imported_insertFunction hnew hf, defined_insertFunction hnew hf]
  cases r.combined <;> simp

end

end Module

/-! ## Names that have numbers -/

/-- A table knows only the names that it lists. -/
theorem NameTable.Lists.mem_of_mem {t : NameTable} {names : List String} (h : Lists t names) {name : String} (hname : name ∈ t) :
    name ∈ names := by
  have hget := Std.TreeMap.getElem?_eq_some_getElem hname
  exact List.mem_of_getElem? ((h.get name _).1 hget)

/-- A name that has a number, among the functions or among the imported ones, is that of a function of the module. -/
theorem Numbering.Describes.exists_function {n : Numbering} {m : Module} {r : Revision} (h : n.Describes m r)
    (hshared : r.combined = true → n.references.importNumbers = n.references.functionNumbers) {name : String}
    (hname : name ∈ n.references.functionNumbers ∨ name ∈ n.references.importNumbers) : ∃ f, m.function? name = some f := by
  have hfunctions : name ∈ n.references.functionNumbers → ∃ f, m.function? name = some f := by
    intro hmem
    obtain ⟨f, hf, hfname⟩ := List.mem_map.1 (h.functionNumbers.mem_of_mem hmem)
    exact ⟨f, Module.function?_eq_some.2 ⟨Module.mem_of_mem_numbered hf, hfname⟩⟩
  rcases hname with hname | hname
  · exact hfunctions hname
  · cases hr : r.combined with
    | true => exact hfunctions (hshared hr ▸ hname)
    | false =>
      obtain ⟨f, hf, hfname⟩ := List.mem_map.1 ((h.importNumbers hr).mem_of_mem hname)
      have hmem := m.importedFunctions_append_defined_perm.mem_iff.1 (List.mem_append_left m.defined hf)
      exact ⟨f, Module.function?_eq_some.2 ⟨hmem, hfname⟩⟩

/-! ## What is kept -/

/-- The second numbering gives whatever the first one gives: every number, and the bytes of every body. -/
structure Numbering.Keeps (n n' : Numbering) : Prop where
  /-- The signatures come first, in the same order. -/
  signatures : n.signatures <+: n'.signatures
  /-- A function that has a number keeps it. -/
  functionNumber : ∀ name i, n.functionNumber name = .ok i → n'.functionNumber name = .ok i
  /-- An imported function that has a number keeps it. -/
  importNumber : ∀ name i, n.importNumber name = .ok i → n'.importNumber name = .ok i
  /-- A signature that has a number keeps it. -/
  signatureNumber : ∀ s i, n.references.signatures.number s = .ok i → n'.references.signatures.number s = .ok i
  /-- A body that could be encoded is encoded as the same bytes. -/
  body : ∀ f bytes, (standardEncoder.body n f).run () = .ok bytes () → (standardEncoder.body n' f).run () = .ok bytes ()

namespace References.Extends

variable {n n' : Numbering} (h : n.references.Extends n'.references)
include h

theorem bodyBytes_eq_ok {f : Function} {bytes : List UInt8} (hbytes : n.bodyBytes f = .ok bytes) : n'.bodyBytes f = .ok bytes := by
  have hrevision : n'.revision = n.revision := h.revision
  unfold Numbering.bodyBytes at hbytes ⊢
  rw [hrevision]
  obtain ⟨vars, hvars, hbytes⟩ := EncodeError.bind_eq_ok.1 hbytes
  obtain ⟨code, hcode, hbytes⟩ := EncodeError.bind_eq_ok.1 hbytes
  have hkept : (f.body.mapM fun e => (e.write n'.references).toBytes) = .ok code := by
    refine EncodeError.mapM_eq_ok.2 ((EncodeError.mapM_eq_ok.1 hcode).imp fun e part hpart => ?_)
    exact WriteM.adds_ok_iff.1 ((h.ahead_write_expr e).ok part (WriteM.adds_ok_iff.2 hpart))
  rw [hvars, hkept]
  exact hbytes

/-- Whatever is given under tables is given under tables that extend them. -/
theorem keeps : n.Keeps n' where
  signatures := h.signatures
  functionNumber name i hi := by
    have hget := NameTable.number_eq_ok.1 hi
    obtain ⟨hname, -⟩ := Std.TreeMap.getElem?_eq_some_iff.1 hget
    exact NameTable.number_eq_ok.2 ((h.names name (.inl hname)).1.trans hget)
  importNumber name i hi := by
    have hget := NameTable.number_eq_ok.1 hi
    obtain ⟨hname, -⟩ := Std.TreeMap.getElem?_eq_some_iff.1 hget
    exact NameTable.number_eq_ok.2 ((h.names name (.inr hname)).2.trans hget)
  signatureNumber s i hi := h.number_eq_ok hi
  body f bytes hbytes := by
    rw [standardEncoder_body] at hbytes ⊢
    obtain ⟨hok, -⟩ := EncodeError.run_lift_eq_ok.1 hbytes
    exact EncodeError.run_lift_eq_ok.2 ⟨h.bodyBytes_eq_ok hok, rfl⟩

end References.Extends

/-- Tables are extended by a new name and by signatures that are added after the others. -/
theorem References.extends_insert {refs : References} {r : Revision} (hrevision : refs.revision = r) {name : String}
    (hnew : ¬(name ∈ refs.functionNumbers ∨ name ∈ refs.importNumbers))
    (hshared : r.combined = true → refs.importNumbers = refs.functionNumbers) (i : UInt32) (ss : List Signature) :
    let functions := refs.functionNumbers.insert name i
    refs.Extends ⟨r, functions, if r.combined then functions else refs.importNumbers, refs.signatures.insertAll ss⟩ where
  revision := hrevision.symm
  names := by
    intro other hother
    have hne : name ≠ other := by
      rintro rfl
      exact hnew hother
    have hget : (refs.functionNumbers.insert name i)[other]? = refs.functionNumbers[other]? := by
      rw [Std.TreeMap.getElem?_insert, if_neg (by simpa using hne)]
    refine ⟨hget, ?_⟩
    -- where numbers are shared the new name is in the table of imported functions too
    split
    · rename_i hr
      exact hget.trans (by rw [hshared hr])
    · rfl
  signatures := refs.signatures.signatures_prefix_insertAll ss

/-! ## The numbers of the larger module -/

/-- As long as the signatures can be numbered, only the number of the new name decides whether there are numbers. -/
theorem Module.plainNumbering_insertFunction {m : Module} {f : Function} {r : Revision} {n : Numbering} (hf : f.isImport = false)
    (hnew : m.function? f.name = none) (hn : m.plainNumbering r = .ok n)
    (hsignatures : (m.insertFunction f).signatureUses.eraseDups.length ≤ 0x100000000) :
    (m.insertFunction f).plainNumbering r = (do
      let functions ← NameTable.add "function index" n.references.functionNumbers f.name
      return (m.insertFunction f).numberedBy r
        (n.references.signatures.insertAll (f.signature :: f.body.flatMap Expr.indirectSignatures))
        (functions, if r.combined then functions else n.references.importNumbers)) := by
  obtain ⟨-, tables, htables, rfl⟩ := plainNumbering_eq_ok.1 hn
  rw [plainNumbering_of_le hsignatures, plainTables_insertFunction hnew hf, htables, signatureUses_insertFunction hnew,
    Catalog.insertAll_append]
  show _ <$> (NameTable.add "function index" tables.1 f.name >>= _) = _
  rw [map_bind]
  rfl

/-- The numbers of a module are extended by those of a new definition. -/
theorem Module.extends_insertFunction {m : Module} {f : Function} {r : Revision} {n : Numbering} (hnew : m.function? f.name = none)
    (hn : Yields (Numbering.resolve m r) (.ok n)) (i : UInt32) (ss : List Signature) :
    let functions := n.references.functionNumbers.insert f.name i
    n.references.Extends ⟨r, functions, if r.combined then functions else n.references.importNumbers,
      n.references.signatures.insertAll ss⟩ := by
  obtain ⟨log, hrun⟩ := hn.exists_run []
  have hdescribes := Numbering.resolve_describes hrun
  have hshared := Numbering.importNumbers_eq_of_combined hrun
  refine References.extends_insert hdescribes.revision ?_ hshared i ss
  intro hname
  obtain ⟨g, hg⟩ := hdescribes.exists_function hshared hname
  nomatch hnew.symm.trans hg

/-- A new definition that is added to a module gets the next function number, and changes no number and no body that there was. Only
numbers that do not fit in 32 bits are in the way of it. -/
theorem insertFunction_keeps_numbers {m : Module} {f : Function} {r : Revision} {n : Numbering} (hf : f.isImport = false)
    (hnew : m.function? f.name = none) (hn : Yields (Numbering.resolve m r) (.ok n)) :
    let m' := m.insertFunction f
    if m'.signatureUses.eraseDups.length ≤ 0x100000000 ∧ n.references.functionNumbers.size < 0x100000000 then
      ∃ n' i, Yields (Numbering.resolve m' r) (.ok n') ∧ n.Keeps n' ∧
        n'.functionNumber f.name = .ok i ∧ i.toNat = n.references.functionNumbers.size
    else ∃ what value, Yields (Numbering.resolve m' r) (.error (.outOfRange what value)) ∧ 0x100000000 ≤ value := by
  intro m'
  by_cases hsignatures : m'.signatureUses.eraseDups.length ≤ 0x100000000
  · have hplain := Module.plainNumbering_insertFunction hf hnew (Module.yields_resolve_iff.1 hn) hsignatures
    by_cases hsize : n.references.functionNumbers.size < 0x100000000
    · rw [if_pos ⟨hsignatures, hsize⟩]
      rw [NameTable.add_of_lt _ hsize] at hplain
      have hextends := Module.extends_insertFunction hnew hn n.references.functionNumbers.size.toUInt32
        (f.signature :: f.body.flatMap Expr.indirectSignatures)
      refine ⟨_, _, Module.yields_resolve_iff.2 hplain, hextends.keeps, ?_, UInt32.toNat_ofNat_of_lt' hsize⟩
      exact NameTable.number_eq_ok.2 Std.TreeMap.getElem?_insert_self
    · rw [if_neg fun h => hsize h.2]
      rw [NameTable.add_of_le _ (Nat.le_of_not_lt hsize)] at hplain
      exact ⟨_, _, Module.yields_resolve_iff.2 hplain, Nat.le_of_not_lt hsize⟩
  · rw [if_neg fun h => hsignatures h.1]
    have hplain : m'.plainNumbering r = _ := Module.plainNumbering_of_lt (Nat.lt_of_not_le hsignatures)
    exact ⟨_, _, Module.yields_resolve_iff.2 hplain, Nat.le_refl _⟩

/-- A function with signatures that the sample module does not use, and a call of one of its functions. -/
def Function.late : Function :=
  { Function.new "late" with
    params := #[.i64]
    body := [.drop (.callIndirect ⟨some .f32, []⟩ (.i32Const 0) []), .call "main" []] }

/-- Added to the sample module, the function gets the number after the three that there are, under revision 0xC. The others keep theirs,
and the two defined ones have the bodies that they had. -/
theorem insertFunction_keeps_numbers_late :
    ∃ n n', Yields (Numbering.resolve Module.sample .v12) (.ok n) ∧
      Yields (Numbering.resolve (Module.sample.insertFunction .late) .v12) (.ok n') ∧
      n'.functionNumber "add" = .ok 1 ∧ n'.functionNumber "main" = .ok 2 ∧ n'.functionNumber "late" = .ok 3 ∧
      ∀ f ∈ Module.sample.defined, ∃ bytes, (standardEncoder.body n f).run () = .ok bytes () ∧
        (standardEncoder.body n' f).run () = .ok bytes () := by
  have hencoded : ((Module.sample.plainNumbering .v12).toOption.any fun n =>
      Module.sample.defined.all fun f => (n.bodyBytes f).isOk) = true := by decide +kernel
  have hnumbered : (Module.sample.plainNumbering .v12).isOk = true := by decide +kernel
  have hfits : (Module.sample.insertFunction .late).signatureUses.eraseDups.length ≤ 0x100000000 := by decide +kernel
  obtain ⟨n, hplain⟩ := EncodeError.exists_of_isOk hnumbered
  have hn := Module.yields_resolve_iff.2 hplain
  have hlists := (Module.describes_of_plainNumbering hplain).functionNumbers
  have hsize : n.references.functionNumbers.size = 3 := hlists.size
  have hkept := insertFunction_keeps_numbers (f := .late) rfl (by decide +kernel) hn
  rw [if_pos ⟨hfits, by omega⟩] at hkept
  obtain ⟨n', i, hn', hkeeps, hlate, hi⟩ := hkept
  obtain rfl : i = 3 := UInt32.toNat_inj.1 (hi.trans hsize)
  have hadd := hkeeps.functionNumber "add" 1 (hlists.number_eq_ok.2 rfl)
  have hmain := hkeeps.functionNumber "main" 2 (hlists.number_eq_ok.2 rfl)
  refine ⟨n, n', hn, hn', hadd, hmain, hlate, ?_⟩
  intro f hf
  rw [hplain] at hencoded
  obtain ⟨bytes, hbytes⟩ := EncodeError.exists_of_isOk (List.all_eq_true.1 hencoded f hf)
  have hbody : (standardEncoder.body n f).run () = .ok bytes () := by
    rw [standardEncoder_body]
    exact EncodeError.run_lift_eq_ok.2 ⟨hbytes, rfl⟩
  exact ⟨bytes, hbody, hkeeps.body f bytes hbody⟩

end WasmBinary
