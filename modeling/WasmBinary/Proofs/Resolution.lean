import WasmBinary.Proofs.Numbering
import WasmBinary.Proofs.Rendering

/-!
# Numbering without a log

Nothing that numbering gives depends on the log, so it is a plain computation that gives tables or fails (`yields_resolve_iff`). It has
two parts that know nothing of each other: the catalog depends on the uses of signatures, in the order of all functions
(`Module.plainCatalog`), and the tables of names depend on the imported functions and on the defined ones, each in their order
(`Module.plainTables`).
-/

namespace WasmBinary

/-- What a computation yields is one value or error. -/
theorem Yields.unique {α σ : Type} [Inhabited σ] {x : EStateM EncodeError σ α} {y z : Except EncodeError α} (hy : Yields x y)
    (hz : Yields x z) : y = z :=
  (hy default).symm.trans (hz default)

/-- A computation that yields a value gives it in every run. -/
theorem Yields.exists_run {α σ : Type} {x : EStateM EncodeError σ α} {a : α} (h : Yields x (.ok a)) (s : σ) :
    ∃ s', x.run s = .ok a s' := by
  have houtcome := h s
  cases hrun : x.run s with
  | ok b s' =>
    rw [hrun] at houtcome
    cases houtcome
    exact ⟨s', rfl⟩
  | error e s' =>
    rw [hrun] at houtcome
    nomatch houtcome

namespace Module

/-- The catalog of all signatures that a module uses, if they can be numbered in 32 bits. -/
def plainCatalog (m : Module) : Except EncodeError Catalog :=
  if m.signatureUses.eraseDups.length ≤ 0x100000000 then .ok (Catalog.empty.insertAll m.signatureUses)
  else .error (.outOfRange "signature index" 0x100000000)

/-- The numbers of the functions, and those of the imported functions, which are the same table where numbers are shared. -/
def plainTables (m : Module) (r : Revision) : Except EncodeError (NameTable × NameTable) := do
  let imports ← NameTable.addAll "import index" ∅ (m.imported.map fun p => p.1.name)
  let functions ← NameTable.addAll "function index" (if r.combined then imports else ∅) (m.defined.map Function.name)
  return (functions, if r.combined then functions else imports)

/-- The numbering that a catalog and the tables of names make up. -/
def numberedBy (m : Module) (r : Revision) (catalog : Catalog) (tables : NameTable × NameTable) : Numbering where
  references := ⟨r, tables.1, tables.2, catalog⟩
  imported := m.imported
  defined := m.defined

/-- The numbers of the signatures and functions of a module. -/
def plainNumbering (m : Module) (r : Revision) : Except EncodeError Numbering := do
  let catalog ← m.plainCatalog
  let tables ← m.plainTables r
  return m.numberedBy r catalog tables

variable {m : Module} {r : Revision}

theorem plainCatalog_of_le (h : m.signatureUses.eraseDups.length ≤ 0x100000000) :
    m.plainCatalog = .ok (Catalog.empty.insertAll m.signatureUses) :=
  if_pos h

theorem plainCatalog_of_lt (h : 0x100000000 < m.signatureUses.eraseDups.length) :
    m.plainCatalog = .error (.outOfRange "signature index" 0x100000000) :=
  if_neg (Nat.not_le_of_lt h)

theorem plainNumbering_of_lt (h : 0x100000000 < m.signatureUses.eraseDups.length) :
    m.plainNumbering r = .error (.outOfRange "signature index" 0x100000000) := by
  unfold plainNumbering
  rw [plainCatalog_of_lt h]
  rfl

/-- A module whose signatures can be numbered has numbers if its functions have. -/
theorem plainNumbering_of_le (h : m.signatureUses.eraseDups.length ≤ 0x100000000) :
    m.plainNumbering r = m.numberedBy r (Catalog.empty.insertAll m.signatureUses) <$> m.plainTables r := by
  unfold plainNumbering
  rw [plainCatalog_of_le h]
  rfl

/-- The log has no influence on the catalog. -/
theorem yields_catalog (m : Module) : Yields m.catalog m.plainCatalog := by
  intro log
  by_cases hle : m.signatureUses.eraseDups.length ≤ 0x100000000
  · obtain ⟨catalog, log', hrun⟩ := run_catalog_of_le log hle
    have hcatalog : catalog = Catalog.empty.insertAll m.signatureUses :=
      Catalog.eq_of_signatures_eq ((run_catalog hrun).trans m.signatures_insertAll_signatureUses.symm)
    rw [hrun, plainCatalog_of_le hle, ← hcatalog]
    rfl
  · obtain ⟨log', hrun⟩ := run_catalog_of_lt log (Nat.lt_of_not_le hle)
    rw [hrun, plainCatalog_of_lt (Nat.lt_of_not_le hle)]
    rfl

/-- Whatever is in the log, numbering a module gives its plain numbering. -/
theorem yields_resolve (m : Module) (r : Revision) : Yields (Numbering.resolve m r) (m.plainNumbering r) := by
  unfold plainNumbering plainTables
  simp only [bind_assoc, pure_bind]
  refine m.yields_catalog.bind fun catalog => ?_
  refine (yields_lift _).bind fun imports => (yields_lift _).bind fun functions => ?_
  exact fun _ => rfl

theorem yields_resolve_iff {y : Except EncodeError Numbering} : Yields (Numbering.resolve m r) y ↔ m.plainNumbering r = y :=
  ⟨fun h => (m.yields_resolve r).unique h, fun h => h ▸ m.yields_resolve r⟩

theorem describes_of_plainNumbering {n : Numbering} (h : m.plainNumbering r = .ok n) : n.Describes m r := by
  obtain ⟨log, hrun⟩ := (yields_resolve_iff.2 h).exists_run []
  exact Numbering.resolve_describes hrun

/-- The numbers that a module has are made of its catalog and its tables of names. -/
theorem plainNumbering_eq_ok {n : Numbering} :
    m.plainNumbering r = .ok n ↔ m.signatureUses.eraseDups.length ≤ 0x100000000 ∧
      ∃ tables, m.plainTables r = .ok tables ∧ n = m.numberedBy r (Catalog.empty.insertAll m.signatureUses) tables := by
  by_cases hle : m.signatureUses.eraseDups.length ≤ 0x100000000
  · rw [plainNumbering_of_le hle, EncodeError.map_eq_ok]
    exact ⟨fun ⟨tables, htables, hn⟩ => ⟨hle, tables, htables, hn.symm⟩,
      fun ⟨_, tables, htables, hn⟩ => ⟨tables, htables, hn.symm⟩⟩
  · rw [plainNumbering_of_lt (Nat.lt_of_not_le hle)]
    exact ⟨fun h => (nomatch h), fun h => absurd h.1 hle⟩

end Module

end WasmBinary
