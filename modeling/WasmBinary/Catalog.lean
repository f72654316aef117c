import WasmBinary.Expr.Traversal
import WasmBinary.Log
import WasmBinary.Module

/-!
# The signature catalog

The distinct signatures that a module uses, in the order of their first use. The position of a signature in the catalog is the
number by which a binary refers to it, so a signature keeps its number whatever is registered later. The signatures of indirect calls
are found by a walk over the expressions, which collects them operands first (`Expr.collect`).
-/

namespace WasmBinary

/-- A list of distinct signatures, in order of registration. -/
structure Catalog where
  /-- The signatures, first registered first. -/
  signatures : List Signature
  /-- No signature is registered twice. -/
  nodup : signatures.Nodup

namespace Catalog

/-- The catalog without signatures. -/
def empty : Catalog := ⟨[], List.nodup_nil⟩

instance : Inhabited Catalog := ⟨empty⟩

/-- Adds a signature at the end, unless it is present. -/
def insert (c : Catalog) (s : Signature) : Catalog :=
  if h : s ∈ c.signatures then c
  else
    { signatures := c.signatures ++ [s]
      nodup := by
        refine List.nodup_append.mpr ⟨c.nodup, by simp, ?_⟩
        intro a ha b hb hab
        rw [List.mem_singleton] at hb
        exact h (hb ▸ hab ▸ ha) }

/-- Adding a signature that is present changes nothing. -/
theorem insert_of_mem {c : Catalog} {s : Signature} (h : s ∈ c.signatures) : c.insert s = c :=
  dif_pos h

/-- A new signature comes after all others. -/
theorem signatures_insert_of_not_mem {c : Catalog} {s : Signature} (h : s ∉ c.signatures) :
    (c.insert s).signatures = c.signatures ++ [s] := by
  rw [insert, dif_neg h]

/-- The number of a registered signature. -/
def number (c : Catalog) (s : Signature) : Except EncodeError UInt32 :=
  match c.signatures.idxOf? s with
  | some i => narrow "signature index" i
  | none => .error (.unregisteredSignature s)

end Catalog

/-- A computation that adds to a catalog, logs and may fail. -/
abbrev CatalogM := StateT Catalog LogM

namespace CatalogM

/-- Adds a signature, with a log record if it is new, and gives its number; if it has none, it is added all the same. -/
def tryRegister (s : Signature) : CatalogM (Except EncodeError UInt32) := do
  let before ← get
  let i := before.signatures.idxOf s
  set (before.insert s)
  if s ∉ before.signatures then
    LogM.log (.registered i s)
  return narrow "signature index" i

/-- Registers a signature and gives its number. -/
def register (s : Signature) : CatalogM UInt32 := do
  liftM (← tryRegister s)

end CatalogM

/-! ## Collectors -/

/-- A computation that goes on after a failure and keeps the first one. -/
abbrev CollectorT (m : Type → Type) := StateT (Option EncodeError) m

namespace CollectorT

variable {m : Type → Type} [Monad m]

/-- There was no failure so far. -/
def unfailing : CollectorT m Bool := do
  return (← get).isNone

/-- Keeps a failure, unless there was one before. -/
def keep {α : Type} : Except EncodeError α → CollectorT m Unit
  | .ok _ => pure ()
  | .error e => modify fun first => first.or (some e)

/-- Fails with the first failure. -/
def finish [MonadExceptOf EncodeError m] (x : CollectorT m Unit) : m Unit := do
  let (_, failure) ← x.run none
  failure.forM throw

end CollectorT

namespace Expr

variable {m : Type → Type} [Monad m]

/-- Registers the signature of a node that is an indirect call. -/
def registerNode (register : Signature → m (Except EncodeError UInt32)) (e : Expr) : CollectorT m Unit :=
  e.indirectSignature?.forM fun s => do CollectorT.keep (← register s)

/-- Registers the signatures of the indirect calls in an expression, in the order in which the calls happen. The first failure ends the
visit, but the calls around the one that failed are still registered. -/
def collect [MonadExceptOf EncodeError m] (register : Signature → m (Except EncodeError UInt32)) (e : Expr) : m Unit :=
  (e.visitWhile CollectorT.unfailing (registerNode register)).finish

end Expr

namespace CatalogM

/-- Registers the signatures of all indirect calls in an expression. -/
def registerCalls : Expr → CatalogM Unit :=
  Expr.collect tryRegister

/-- Registers the signature of a function, then those of the indirect calls in its body. -/
def registerFunction (f : Function) : CatalogM Unit := do
  discard (register f.signature)
  f.body.forM registerCalls

end CatalogM

/-- The catalog of all signatures that a module uses. -/
def Module.catalog (m : Module) : LogM Catalog := do
  let (_, catalog) ← (m.functions.toList.forM CatalogM.registerFunction).run .empty
  return catalog

end WasmBinary
