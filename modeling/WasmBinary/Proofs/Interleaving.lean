import WasmBinary.Proofs.Enumeration
import WasmBinary.Proofs.FirstFault
import WasmBinary.Proofs.Resolution

/-!
# Imported functions among the defined ones

Two modules may have the same imported functions in the same order, and the same defined ones, and differ in how these stand among each
other (`Module.Reshuffles`). Their tables of names are the same, and so is every section that refers to functions by number or to none at
all. Only the catalog follows the order of all functions: it lists the same signatures in another order (`Reshuffles.eraseDups_perm`).
What refers to a signature by number says the same once the signature is put in the place of the number (`Section.decoded?`).
-/

namespace WasmBinary

open ByteReader

variable {α β γ : Type}

/-! ## Two computations that end alike -/

/-- Two computations both give a value, and the values are related, or both fail, and the errors are related. -/
inductive EndsAlike (E : EncodeError → EncodeError → Prop) (R : α → β → Prop) : Except EncodeError α → Except EncodeError β → Prop
  | ok {a : α} {b : β} : R a b → EndsAlike E R (.ok a) (.ok b)
  | error {e e' : EncodeError} : E e e' → EndsAlike E R (.error e) (.error e')

/-- Computations with the same faults end alike if their values are related. -/
theorem endsAlike_of_fault?_eq {R : α → β → Prop} {x : Except EncodeError α} {y : Except EncodeError β} (hfault : fault? x = fault? y)
    (hvalue : ∀ a b, x = .ok a → y = .ok b → R a b) : EndsAlike Eq R x y := by
  cases x with
  | ok a =>
    obtain ⟨b, rfl⟩ := fault?_eq_none.1 hfault.symm
    exact .ok (hvalue a b rfl rfl)
  | error e =>
    obtain rfl := fault?_eq_some.1 hfault.symm
    exact .error rfl

/-- The same without regard to what the errors are. -/
theorem endsAlike_of_isSome_fault? {R : α → β → Prop} {x : Except EncodeError α} {y : Except EncodeError β}
    (hfault : (fault? x).isSome = (fault? y).isSome) (hvalue : ∀ a b, x = .ok a → y = .ok b → R a b) :
    EndsAlike (fun _ _ => True) R x y := by
  cases x with
  | ok a =>
    cases y with
    | ok b => exact .ok (hvalue a b rfl rfl)
    | error e => nomatch hfault
  | error e =>
    cases y with
    | ok b => nomatch hfault
    | error e' => exact .error trivial

namespace EndsAlike

variable {α' β' : Type} {E : EncodeError → EncodeError → Prop} {R : α → β → Prop} {S : α' → β' → Prop}

theorem map {x : Except EncodeError α} {y : Except EncodeError β} {f : α → α'} {g : β → β'} (h : EndsAlike E R x y)
    (hvalue : ∀ a b, R a b → S (f a) (g b)) : EndsAlike E S (f <$> x) (g <$> y) := by
  cases h with
  | ok hR => exact .ok (hvalue _ _ hR)
  | error hE => exact .error hE

theorem bind {x : Except EncodeError α} {y : Except EncodeError β} {f : α → Except EncodeError α'} {g : β → Except EncodeError β'}
    (h : EndsAlike E R x y) (hnext : ∀ a b, R a b → EndsAlike E S (f a) (g b)) : EndsAlike E S (x >>= f) (y >>= g) := by
  cases h with
  | ok hR => exact hnext _ _ hR
  | error hE => exact .error hE

/-- What comes first is the same. -/
theorem same_bind {f : α → Except EncodeError α'} {g : α → Except EncodeError β'} (x : Except EncodeError α)
    (hnext : ∀ a, EndsAlike Eq S (f a) (g a)) : EndsAlike Eq S (x >>= f) (x >>= g) := by
  cases x with
  | ok a => exact hnext a
  | error e => exact .error rfl

theorem mapM {f : α → Except EncodeError α'} {g : β → Except EncodeError β'} (h : ∀ a b, R a b → EndsAlike E S (f a) (g b))
    {as : List α} {bs : List β} (hitems : List.Forall₂ R as bs) : EndsAlike E (List.Forall₂ S) (as.mapM f) (bs.mapM g) := by
  induction hitems with
  | nil => exact .ok .nil
  | cons hR _ ih =>
    rw [List.mapM_cons, List.mapM_cons]
    exact (h _ _ hR).bind fun _ _ hfirst => ih.bind fun _ _ hrest => .ok (.cons hfirst hrest)

theorem refl {R : α → α → Prop} [Std.Refl R] (x : Except EncodeError α) : EndsAlike Eq R x x := by
  cases x with
  | ok a => exact .ok (Std.Refl.refl a)
  | error e => exact .error rfl

end EndsAlike

/-! ## Entries with their signatures -/

/-- An entry of an import section with the signature that its number selects. -/
def ImportEntry.withSignature? (types : List Signature) (e : ImportEntry) : Option (String × String × Signature) :=
  types[e.signature.toNat]?.map fun s => (e.moduleName, e.name, s)

namespace Section

/-- The entries of a section, each turned into what it stands for. -/
def decoded? (r : ByteReader (List α)) (meaning : α → Option β) (s : Section) : Option (List β) := do
  let entries ← r.whole s.payload
  entries.mapM meaning

/-- If each item is read back as an entry that stands for a value, the section stands for the values of the items. -/
theorem decoded?_of_counted {kind : SectionKind} {item : α → WriteM Unit} [∀ a, (item a).Appends] {items : List α} {r : ByteReader β}
    {meaning : β → Option γ} {value : α → γ} {s : Section}
    (hread : ∀ a part, (item a).toBytes = .ok part → ∃ b, meaning b = some (value a) ∧ Reads r part b)
    (h : ofWriter kind (WriteM.counted item items) = .ok s) : s.decoded? (counted r) meaning = some (items.map value) := by
  obtain ⟨entries, hentries, -, hwhole⟩ := says_counted h hread
  unfold decoded?
  rw [hwhole]
  exact mapM_eq_some.2 (List.forall₂_map_right_iff.2 hentries.flip)

/-- Two sections stand for the same if they are written item by item, with the same faults, and each item is read back as the same. -/
theorem endsAlike_counted {kind : SectionKind} {item item' : α → WriteM Unit} [∀ a, (item a).Appends] [∀ a, (item' a).Appends]
    {items : List α} {r : ByteReader β} {meaning meaning' : β → Option γ} (value : α → γ)
    (hfault : ∀ a ∈ items, (item a).fault = (item' a).fault)
    (hread : ∀ a part, (item a).toBytes = .ok part → ∃ b, meaning b = some (value a) ∧ Reads r part b)
    (hread' : ∀ a part, (item' a).toBytes = .ok part → ∃ b, meaning' b = some (value a) ∧ Reads r part b) :
    EndsAlike Eq (fun s s' => ∃ values, s.decoded? (counted r) meaning = some values ∧ s'.decoded? (counted r) meaning' = some values)
      (ofWriter kind (WriteM.counted item items)) (ofWriter kind (WriteM.counted item' items)) := by
  refine endsAlike_of_fault?_eq ?_ ?_
  · rw [fault?_ofWriter, fault?_ofWriter, WriteM.fault_counted_eq, WriteM.fault_counted_eq, findSome?_congr hfault]
  · intro s s' hs hs'
    exact ⟨_, decoded?_of_counted hread hs, decoded?_of_counted hread' hs'⟩

variable {n : Numbering}

theorem exists_withSignature?_of_writeImport {p : Function × ImportSource} {part : List UInt8}
    (h : (writeImport n p.1 p.2).toBytes = .ok part) :
    ∃ e, ImportEntry.withSignature? n.signatures e = some (p.2.moduleName.getD "", p.2.name, p.1.signature) ∧
      Reads (ImportEntry.read n.revision) part e := by
  obtain ⟨e, ⟨hmodule, hname, hnumber⟩, hreads⟩ := reads_writeImport h
  have hselects : n.signatures[e.signature.toNat]? = some p.1.signature := Catalog.number_eq_ok.1 hnumber
  refine ⟨e, ?_, hreads⟩
  simp [ImportEntry.withSignature?, hselects, hmodule, hname]

theorem exists_signature_of_writeNumber {f : Function} {part : List UInt8}
    (h : (do WriteM.leb (← n.signatureNumber f) : WriteM Unit).toBytes = .ok part) :
    ∃ i, n.signatures[i.toNat]? = some f.signature ∧ Reads leb part i := by
  obtain ⟨i, hi, hpart⟩ := toBytes_lift_bind_eq_ok.1 h
  exact ⟨i, Catalog.number_eq_ok.1 hi, readBy_leb i part hpart⟩

variable {n' : Numbering}

/-- Type sections with the same signatures, in whatever order, both fail or list their signatures. -/
theorem endsAlike_types (h : n.signatures.Perm n'.signatures) :
    EndsAlike (fun _ _ => True) (fun s s' => s.Says .types readTypes n.signatures ∧ s'.Says .types readTypes n'.signatures)
      (Section.types n) (Section.types n') := by
  -- which signature is the first that is too long depends on the order, so the errors may differ
  refine endsAlike_of_isSome_fault? ?_ ?_
  · unfold Section.types
    rw [fault?_ofWriter, fault?_ofWriter, WriteM.fault_counted_eq, WriteM.fault_counted_eq, Option.isSome_or, Option.isSome_or,
      List.isSome_findSome?, List.isSome_findSome?, h.length_eq, h.any_eq]
  · intro s s' hs hs'
    exact ⟨says_types hs, says_types hs'⟩

/-- Import sections of the same functions stand for the same. -/
theorem endsAlike_imports (hrevision : n'.revision = n.revision) (himported : n'.imported = n.imported)
    (hnumber : ∀ p ∈ n.imported, fault? (n.signatureNumber p.1) = none)
    (hnumber' : ∀ p ∈ n.imported, fault? (n'.signatureNumber p.1) = none) :
    EndsAlike Eq (Option.Rel fun s s' => ∃ entries,
        s.decoded? (readImports n.revision) (ImportEntry.withSignature? n.signatures) = some entries ∧
        s'.decoded? (readImports n.revision) (ImportEntry.withSignature? n'.signatures) = some entries)
      (Section.imports n) (Section.imports n') := by
  unfold Section.imports
  rw [himported]
  cases n.imported.isEmpty with
  | true => exact .ok .none
  | false =>
    refine EndsAlike.map (endsAlike_counted (fun p => (p.2.moduleName.getD "", p.2.name, p.1.signature)) ?_ ?_ ?_)
      fun s s' hs => .some hs
    · intro p hp
      rw [fault_writeImport_of_number (hnumber p hp), fault_writeImport_of_number (hnumber' p hp)]
    · intro p part hpart
      exact exists_withSignature?_of_writeImport hpart
    · intro p part hpart
      rw [← hrevision]
      exact exists_withSignature?_of_writeImport hpart

/-- Function sections of the same functions stand for the same. -/
theorem endsAlike_functions (hdefined : n'.defined = n.defined) (hnumber : ∀ f ∈ n.defined, fault? (n.signatureNumber f) = none)
    (hnumber' : ∀ f ∈ n.defined, fault? (n'.signatureNumber f) = none) :
    EndsAlike Eq (fun s s' => ∃ types, s.decoded? readIndexes (fun i => n.signatures[i.toNat]?) = some types ∧
        s'.decoded? readIndexes (fun i => n'.signatures[i.toNat]?) = some types)
      (Section.functions n) (Section.functions n') := by
  unfold Section.functions
  rw [hdefined]
  refine endsAlike_counted Function.signature ?_ ?_ ?_
  · intro f hf
    rw [WriteM.fault_lift_bind (hnumber f hf) fun i _ => WriteM.fault_leb i,
      WriteM.fault_lift_bind (hnumber' f hf) fun i _ => WriteM.fault_leb i]
  · intro f part hpart
    exact exists_signature_of_writeNumber hpart
  · intro f part hpart
    exact exists_signature_of_writeNumber hpart

end Section

/-! ## Modules that differ in the order of their functions -/

/-- The second module has the parts of the first one; only its imported functions may stand elsewhere among the defined ones. -/
structure Module.Reshuffles (m m' : Module) : Prop where
  /-- The function tables are the same. -/
  table : m'.table = m.table
  /-- The sizes of the memories are the same. -/
  memorySize : m'.memorySize = m.memorySize
  /-- The initial contents of the memories are the same. -/
  segments : m'.segments = m.segments
  /-- The functions to start with are the same. -/
  start : m'.start = m.start
  /-- The imported functions are the same, in the same order. -/
  importedFunctions : m'.importedFunctions = m.importedFunctions
  /-- The defined functions are the same, in the same order. -/
  defined : m'.defined = m.defined

/-- The imported functions, with where they come from, are known from the imported functions alone. -/
theorem Module.imported_eq_filterMap (m : Module) :
    m.imported = m.importedFunctions.filterMap fun f => f.importSource.map (f, ·) := by
  rw [importedFunctions_eq_filter, List.filterMap_filter]
  refine List.filterMap_congr fun f _ => ?_
  cases hsource : f.importSource <;> simp [Function.isImport, hsource]

namespace Module.Reshuffles

variable {m m' : Module} (h : m.Reshuffles m')
include h

theorem imported_eq : m'.imported = m.imported := by
  rw [imported_eq_filterMap, imported_eq_filterMap, h.importedFunctions]

theorem plainTables_eq (r : Revision) : m'.plainTables r = m.plainTables r := by
  unfold plainTables
  rw [h.imported_eq, h.defined]

/-- The same functions use the same signatures. -/
theorem signatureUses_perm : m.signatureUses.Perm m'.signatureUses := by
  have hfunctions : m.functions.toList.Perm m'.functions.toList := by
    refine m.importedFunctions_append_defined_perm.symm.trans ?_
    rw [← h.importedFunctions, ← h.defined]
    exact m'.importedFunctions_append_defined_perm
  exact hfunctions.flatMap_right _

/-- The distinct signatures are the same up to order. -/
theorem eraseDups_perm : m.signatureUses.eraseDups.Perm m'.signatureUses.eraseDups := by
  refine (List.perm_ext_iff_of_nodup (Catalog.nodup_eraseDups _) (Catalog.nodup_eraseDups _)).2 fun s => ?_
  rw [List.mem_eraseDups, List.mem_eraseDups, h.signatureUses_perm.mem_iff]

end Module.Reshuffles

/-! ## Their numbers and sections -/

/-- Numbers of two modules that are the same but for the numbers of signatures, and sections that say the same. A section that is the
same is left out of both or of none, and fails for both or for none, with the same error. -/
structure SameSections (m m' : Module) (r : Revision) (n n' : Numbering) : Prop where
  /-- The functions have the same numbers. -/
  functionNumbers : n'.references.functionNumbers = n.references.functionNumbers
  /-- The imported functions have the same numbers. -/
  importNumbers : n'.references.importNumbers = n.references.importNumbers
  /-- The table sections are the same. -/
  table : Section.table m' n' = Section.table m n
  /-- The memory sections are the same. -/
  memory : Section.memory m' r = Section.memory m r
  /-- The start sections are the same. -/
  start : Section.start m' n' = Section.start m n
  /-- The element sections are the same. -/
  elements : Section.elements m' n' = Section.elements m n
  /-- The data sections are the same. -/
  data : Section.data m' r = Section.data m r
  /-- The name sections are the same. -/
  names : ∀ settings, n'.nameSection settings = n.nameSection settings
  /-- The signatures are the same up to order. -/
  signatures : n.signatures.Perm n'.signatures
  /-- The type sections list the signatures, or both fail. -/
  types : EndsAlike (fun _ _ => True)
    (fun s s' => s.Says .types readTypes n.signatures ∧ s'.Says .types readTypes n'.signatures) (Section.types n) (Section.types n')
  /-- The import sections stand for the same names and signatures. -/
  imports : EndsAlike Eq
    (Option.Rel fun s s' => ∃ entries,
      s.decoded? (readImports r) (ImportEntry.withSignature? n.signatures) = some entries ∧
      s'.decoded? (readImports r) (ImportEntry.withSignature? n'.signatures) = some entries)
    (Section.imports n) (Section.imports n')
  /-- The function sections stand for the same signatures. -/
  functions : EndsAlike Eq
    (fun s s' => ∃ types, s.decoded? readIndexes (fun i => n.signatures[i.toNat]?) = some types ∧
      s'.decoded? readIndexes (fun i => n'.signatures[i.toNat]?) = some types)
    (Section.functions n) (Section.functions n')

/-- Every function of a module has a signature with a number, if the distinct signatures can be numbered. -/
theorem Numbering.Describes.fault?_signatureNumber {n : Numbering} {m : Module} {r : Revision} (h : n.Describes m r)
    (hle : m.signatureUses.eraseDups.length ≤ 0x100000000) {f : Function} (hf : f ∈ m.functions.toList) :
    fault? (n.signatureNumber f) = none :=
  Section.fault?_number_of_le h.signatures hle (List.mem_flatMap.2 ⟨f, hf, List.mem_cons_self⟩)

/-- Under the same tables of names the modules have the same sections, whatever the order of the signatures is. -/
theorem Module.Reshuffles.sameSections {m m' : Module} {r : Revision} {n n' : Numbering} (h : m.Reshuffles m') (hn : n.Describes m r)
    (hn' : n'.Describes m' r) (hfunctions : n'.references.functionNumbers = n.references.functionNumbers)
    (himports : n'.references.importNumbers = n.references.importNumbers)
    (hle : m.signatureUses.eraseDups.length ≤ 0x100000000) : SameSections m m' r n n' := by
  have hle' : m'.signatureUses.eraseDups.length ≤ 0x100000000 := h.eraseDups_perm.length_eq ▸ hle
  have hrevision : n'.revision = n.revision := hn'.revision.trans hn.revision.symm
  have himported : n'.imported = n.imported := by rw [hn'.imported, hn.imported, h.imported_eq]
  have hdefined : n'.defined = n.defined := by rw [hn'.defined, hn.defined, h.defined]
  have hnumber : n'.functionNumber = n.functionNumber := by
    funext name
    unfold Numbering.functionNumber
    rw [hfunctions]
  have hsignatures : n.signatures.Perm n'.signatures := by
    rw [hn.signatures, hn'.signatures]
    exact h.eraseDups_perm
  exact {
    functionNumbers := hfunctions
    importNumbers := himports
    table := by
      unfold Section.table Section.writeTableEntries
      rw [h.table, hrevision, hnumber]
    memory := by
      unfold Section.memory
      rw [h.memorySize]
    start := by
      unfold Section.start
      rw [h.start, hnumber]
    elements := by
      unfold Section.elements Section.writeTableEntries
      rw [h.table, hrevision, hnumber]
    data := by
      unfold Section.data Section.dataInChunks
      rw [h.segments]
    names := by
      intro settings
      unfold Numbering.nameSection Section.names
      rw [hdefined]
    signatures := hsignatures
    types := Section.endsAlike_types hsignatures
    imports := by
      rw [← hn.revision]
      refine Section.endsAlike_imports hrevision himported ?_ ?_
      · intro p hp
        rw [hn.imported] at hp
        exact hn.fault?_signatureNumber hle (Module.mem_of_mem_imported hp)
      · intro p hp
        rw [← himported, hn'.imported] at hp
        exact hn'.fault?_signatureNumber hle' (Module.mem_of_mem_imported hp)
    functions := by
      refine Section.endsAlike_functions hdefined ?_ ?_
      · intro f hf
        rw [hn.defined] at hf
        exact hn.fault?_signatureNumber hle (List.mem_filter.1 hf).1
      · intro f hf
        rw [← hdefined, hn'.defined] at hf
        exact hn'.fault?_signatureNumber hle' (List.mem_filter.1 hf).1 }

/-- Modules that differ only in how their imported functions stand among the defined ones are numbered alike: both fail, with the same
error, or the functions have the same numbers and the sections say the same. -/
theorem resolve_reshuffled {m m' : Module} (h : m.Reshuffles m') (r : Revision) :
    ∃ x x', Yields (Numbering.resolve m r) x ∧ Yields (Numbering.resolve m' r) x' ∧ EndsAlike Eq (SameSections m m' r) x x' := by
  refine ⟨_, _, m.yields_resolve r, m'.yields_resolve r, ?_⟩
  have hlength := h.eraseDups_perm.length_eq
  by_cases hle : m.signatureUses.eraseDups.length ≤ 0x100000000
  · rw [Module.plainNumbering_of_le hle, Module.plainNumbering_of_le (hlength ▸ hle), h.plainTables_eq]
    cases htables : m.plainTables r with
    | error e => exact .error rfl
    | ok tables =>
      -- the tables of names are common to both, each module has its own catalog
      have hn := Module.plainNumbering_eq_ok.2 ⟨hle, tables, htables, rfl⟩
      have hn' := Module.plainNumbering_eq_ok.2 ⟨hlength ▸ hle, tables, (h.plainTables_eq r).trans htables, rfl⟩
      exact .ok (h.sameSections (Module.describes_of_plainNumbering hn) (Module.describes_of_plainNumbering hn') rfl rfl hle)
  · have hlt := Nat.lt_of_not_le hle
    rw [Module.plainNumbering_of_lt hlt, Module.plainNumbering_of_lt (hlength ▸ hlt)]
    exact .error rfl

/-- The module with its imported functions in front of the defined ones. -/
def Module.importsFirst (m : Module) : Module :=
  { m with functions := ⟨m.importedFunctions ++ m.defined, m.importedFunctions_append_defined_nodup⟩ }

theorem Module.reshuffles_importsFirst (m : Module) : m.Reshuffles m.importsFirst where
  table := rfl
  memorySize := rfl
  segments := rfl
  start := rfl
  importedFunctions := by
    rw [importedFunctions_eq_filter, importedFunctions_eq_filter]
    show (m.importedFunctions ++ m.defined).filter _ = _
    rw [importedFunctions_eq_filter]
    simp [List.filter_append, defined]
  defined := by
    show (m.importedFunctions ++ m.defined).filter _ = _
    rw [importedFunctions_eq_filter]
    simp [List.filter_append, defined]

/-- Two defined functions and two imported ones in turn, with two of them in the table and one to start with. -/
def Module.scattered : Module :=
  { Module.inTurn with
    table := ["second", "print"]
    start := some "first" }

/-- With the imported functions in front, two signatures change places, and all sections say what they said. -/
theorem resolve_reshuffled_scattered :
    ∃ n n', Yields (Numbering.resolve Module.scattered .v12) (.ok n) ∧
      Yields (Numbering.resolve Module.scattered.importsFirst .v12) (.ok n') ∧
      n.signatures = [⟨none, []⟩, ⟨none, [.i32]⟩, ⟨some .i32, []⟩] ∧ n'.signatures = [⟨none, [.i32]⟩, ⟨none, []⟩, ⟨some .i32, []⟩] ∧
      SameSections Module.scattered Module.scattered.importsFirst .v12 n n' := by
  have hnumbered : (Module.scattered.plainNumbering .v12).isOk = true := by decide +kernel
  obtain ⟨n, hn⟩ := EncodeError.exists_of_isOk hnumbered
  obtain ⟨x, x', hx, hx', halike⟩ := resolve_reshuffled Module.scattered.reshuffles_importsFirst .v12
  obtain rfl := hx.unique (Module.yields_resolve_iff.2 hn)
  cases halike with
  | ok hsame =>
    have hdescribes := Module.describes_of_plainNumbering hn
    have hdescribes' := Module.describes_of_plainNumbering (Module.yields_resolve_iff.1 hx')
    refine ⟨n, _, hx, hx', ?_, ?_, hsame⟩
    · rw [hdescribes.signatures]
      decide +kernel
    · rw [hdescribes'.signatures]
      decide +kernel

end WasmBinary
