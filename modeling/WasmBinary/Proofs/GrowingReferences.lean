import WasmBinary.Proofs.AlikeEncoders
import WasmBinary.Proofs.Lowering

/-!
# Code under growing tables

A writer adds the same bytes to every buffer, and ends in the same way, with or without an error (`WriteM.Adds`). One writer may be
ahead of another: it writes the same where the other ends well, and what the other wrote and more where that one stops with an error
(`WriteM.Ahead`). A sequence is ahead of another if its parts are. When tables grow by new names and by signatures that come last, each
instruction is ahead of what it was before (`References.Extends.ahead_write`), and so is the code of every expression.
-/

namespace WasmBinary

namespace WriteM

/-- Whatever the buffer holds, the computation ends in this way, and leaves these bytes behind those that were there. -/
def Adds (w : WriteM Unit) (result : Except EncodeError Unit) (bytes : List UInt8) : Prop :=
  ∀ buffer : Buffer, outcome (w.run buffer) = result ∧ finalState (w.run buffer) = buffer ++ bytes

theorem outcome_onto (b : Buffer) (r : EStateM.Result EncodeError Buffer Unit) : outcome (onto b r) = outcome r := by
  cases r <;> rfl

theorem finalState_onto (b : Buffer) (r : EStateM.Result EncodeError Buffer Unit) : finalState (onto b r) = b ++ finalState r := by
  cases r <;> rfl

/-- A computation that only adds to the buffer adds to every buffer what it adds to the empty one. -/
theorem adds_of_run_empty {w : WriteM Unit} [Appends w] {result : Except EncodeError Unit} {bytes : List UInt8}
    (hresult : outcome (w.run #[]) = result) (hbytes : (finalState (w.run #[])).toList = bytes) : Adds w result bytes := by
  subst hresult hbytes
  intro buffer
  rw [Appends.run_eq_onto buffer, outcome_onto, finalState_onto]
  refine ⟨rfl, Array.toList_inj.mp ?_⟩
  simp

/-- What a computation that ends well adds is what it writes. -/
theorem adds_ok_iff {w : WriteM Unit} [Appends w] {bytes : List UInt8} : Adds w (.ok ()) bytes ↔ w.toBytes = .ok bytes := by
  constructor
  · intro h
    have hrun : w.run #[] = .ok () (#[] ++ bytes) := eq_ok_iff.2 (h #[])
    unfold toBytes
    rw [hrun]
    simp
  · exact fun h buffer => eq_ok_iff.1 (run_of_toBytes h buffer)

theorem exists_adds (w : WriteM Unit) [Appends w] : ∃ result bytes, Adds w result bytes :=
  ⟨_, _, adds_of_run_empty rfl rfl⟩

/-- It adds nothing else and ends in no other way. -/
theorem Adds.unique {w : WriteM Unit} {result result' : Except EncodeError Unit} {bytes bytes' : List UInt8}
    (h : Adds w result bytes) (h' : Adds w result' bytes') : result = result' ∧ bytes = bytes' := by
  obtain ⟨houtcome, hstate⟩ := h #[]
  obtain ⟨houtcome', hstate'⟩ := h' #[]
  refine ⟨houtcome.symm.trans houtcome', ?_⟩
  simpa using congrArg Array.toList (hstate.symm.trans hstate')

theorem adds_raw (bytes : List UInt8) : Adds (raw bytes) (.ok ()) bytes :=
  fun _ => ⟨rfl, rfl⟩

/-- Where there is no value to go on with, nothing is added. -/
theorem adds_lift_error {α : Type} (e : EncodeError) (f : α → WriteM Unit) :
    Adds (liftM (.error e : Except EncodeError α) >>= f) (.error e) [] := by
  intro buffer
  refine ⟨rfl, ?_⟩
  show buffer = buffer ++ ([] : List UInt8)
  simp

/-! ## Sequences -/

section

variable {x y : WriteM Unit} {result : Except EncodeError Unit} {e : EncodeError} {a b bytes : List UInt8}

/-- After a part that ends well, the next one adds its bytes and decides how the sequence ends. -/
theorem Adds.seq (hx : Adds x (.ok ()) a) (hy : Adds y result b) : Adds (x >>= fun _ => y) result (a ++ b) := by
  intro buffer
  have hrun : x.run buffer = .ok () (buffer ++ a) := eq_ok_iff.2 (hx buffer)
  obtain ⟨houtcome, hstate⟩ := hy (buffer ++ a)
  rw [EStateM.run_bind, hrun]
  refine ⟨houtcome, hstate.trans (Array.toList_inj.mp ?_)⟩
  simp

/-- After a part that fails, nothing more is done. -/
theorem Adds.seq_error (hx : Adds x (.error e) a) : Adds (x >>= fun _ => y) (.error e) a := by
  intro buffer
  have hrun : x.run buffer = .error e (buffer ++ a) := eq_error_iff.2 (hx buffer)
  rw [EStateM.run_bind, hrun]
  exact ⟨rfl, rfl⟩

/-- A sequence stops in its first part, or it adds what its parts add. -/
theorem Adds.cases_seq [Appends x] [Appends y] (h : Adds (x >>= fun _ => y) result bytes) :
    (∃ e, result = .error e ∧ Adds x (.error e) bytes) ∨
      ∃ a b, Adds x (.ok ()) a ∧ Adds y result b ∧ bytes = a ++ b := by
  obtain ⟨first, a, hx⟩ := exists_adds x
  cases first with
  | error e =>
    obtain ⟨rfl, rfl⟩ := h.unique hx.seq_error
    exact .inl ⟨e, rfl, hx⟩
  | ok u =>
    obtain ⟨second, b, hy⟩ := exists_adds y
    obtain ⟨rfl, rfl⟩ := h.unique (hx.seq hy)
    exact .inr ⟨a, b, hx, hy, rfl⟩

end

/-! ## Being ahead -/

/-- The second writer adds the same bytes if the first one ends well. If the first one stops with an error and the second one does not,
the second one adds the bytes that the first one left, and at least one more. -/
structure Ahead (w w' : WriteM Unit) : Prop where
  ok : ∀ bytes, Adds w (.ok ()) bytes → Adds w' (.ok ()) bytes
  error : ∀ e left bytes, Adds w (.error e) left → Adds w' (.ok ()) bytes → ∃ more, more ≠ [] ∧ bytes = left ++ more

theorem Ahead.refl (w : WriteM Unit) : Ahead w w where
  ok _ h := h
  error _ _ _ h h' := nomatch (h.unique h').1

/-- A sequence is ahead if its parts are. -/
theorem Ahead.seq {x x' y y' : WriteM Unit} [Appends x] [Appends x'] [Appends y] [Appends y'] (hx : Ahead x x') (hy : Ahead y y') :
    Ahead (x >>= fun _ => y) (x' >>= fun _ => y') where
  ok := by
    intro bytes h
    rcases h.cases_seq with ⟨_, he, _⟩ | ⟨a, b, ha, hb, rfl⟩
    · nomatch he
    · exact (hx.ok a ha).seq (hy.ok b hb)
  error := by
    intro e left bytes h h'
    rcases h'.cases_seq with ⟨_, he, _⟩ | ⟨a', b', ha', hb', rfl⟩
    · nomatch he
    rcases h.cases_seq with ⟨_, _, hleft⟩ | ⟨a, b, ha, hb, rfl⟩
    · obtain ⟨more, hmore, rfl⟩ := hx.error _ left a' hleft ha'
      exact ⟨more ++ b', by simp [hmore], List.append_assoc _ _ _⟩
    · obtain ⟨-, rfl⟩ := (hx.ok a ha).unique ha'
      obtain ⟨more, hmore, rfl⟩ := hy.error _ b b' hb hb'
      exact ⟨more, hmore, (List.append_assoc _ _ _).symm⟩

/-- What is written item by item is ahead if it is for each item. -/
theorem Ahead.forM {α : Type} {f f' : α → WriteM Unit} [∀ a, Appends (f a)] [∀ a, Appends (f' a)] (h : ∀ a, Ahead (f a) (f' a))
    (items : List α) : Ahead (items.forM f) (items.forM f') := by
  induction items with
  | nil => exact .refl _
  | cons a items ih => exact (h a).seq ih

/-- Bytes that are made of a value which may be missing are ahead if no value gets lost and there is at least one byte. -/
theorem Ahead.lift {α : Type} {x x' : Except EncodeError α} (h : ∀ a, x = .ok a → x' = .ok a) {bytes : α → List UInt8}
    (hbytes : ∀ a, bytes a ≠ []) : Ahead (liftM x >>= fun a => raw (bytes a)) (liftM x' >>= fun a => raw (bytes a)) := by
  cases x with
  | ok a =>
    rw [h a rfl]
    exact .refl _
  | error e =>
    have hstop := adds_lift_error e fun a => raw (bytes a)
    refine ⟨fun written hok => (nomatch (hok.unique hstop).1), ?_⟩
    intro e' left written hleft hwritten
    obtain ⟨-, rfl⟩ := hleft.unique hstop
    cases x' with
    | error e'' => nomatch (hwritten.unique (adds_lift_error e'' _)).1
    | ok a =>
      obtain ⟨-, rfl⟩ := hwritten.unique (adds_raw (bytes a))
      exact ⟨bytes a, hbytes a, rfl⟩

end WriteM

/-! ## Tables that grow -/

namespace References

/-- The second tables have what the first ones have. They have more only for names that are in neither of the first ones, and for
signatures that come after those of the first ones. -/
structure Extends (refs refs' : References) : Prop where
  /-- Both are for one revision. -/
  revision : refs'.revision = refs.revision
  /-- A name that is in one of the tables has the same entries, and lacks the same. -/
  names : ∀ name, name ∈ refs.functionNumbers ∨ name ∈ refs.importNumbers →
    refs'.functionNumbers[name]? = refs.functionNumbers[name]? ∧ refs'.importNumbers[name]? = refs.importNumbers[name]?
  /-- The signatures come first, in the same order. -/
  signatures : refs.signatures.signatures <+: refs'.signatures.signatures

namespace Extends

variable {refs refs' : References} (h : refs.Extends refs')
include h

/-- A call that has its number keeps it. -/
theorem callInstr_eq_ok {name : String} {i : Instr} (hi : refs.callInstr name = .ok i) : refs'.callInstr name = .ok i := by
  rw [References.callInstr_eq_ok, h.revision]
  rcases References.callInstr_eq_ok.1 hi with ⟨hr, k, hk, rfl⟩ | ⟨hr, k, hk, rfl⟩
  · obtain ⟨hname, -⟩ := Std.TreeMap.getElem?_eq_some_iff.1 hk
    obtain ⟨-, himports⟩ := h.names name (.inr hname)
    exact .inl ⟨hr, k, himports.trans hk, rfl⟩
  · obtain ⟨hname, -⟩ := Std.TreeMap.getElem?_eq_some_iff.1 hk
    obtain ⟨hfunctions, himports⟩ := h.names name (.inl hname)
    exact .inr ⟨fun hv => himports.trans (hr hv), k, hfunctions.trans hk, rfl⟩

/-- A signature that has a number keeps it. -/
theorem number_eq_ok {s : Signature} {i : UInt32} (hi : refs.signatures.number s = .ok i) : refs'.signatures.number s = .ok i := by
  have hplace := Catalog.number_eq_ok.1 hi
  obtain ⟨added, hadded⟩ := h.signatures
  rw [Catalog.number_eq_ok, ← hadded, List.getElem?_append_left (List.getElem?_eq_some_iff.1 hplace).1]
  exact hplace

/-- An instruction under the extended tables is ahead of the same instruction. -/
theorem ahead_write (s : Symbolic) : WriteM.Ahead (s.write refs) (s.write refs') := by
  cases s with
  | plain i => exact .refl _
  | call name => exact .lift (fun i hi => h.callInstr_eq_ok hi) fun i => List.cons_ne_nil _ _
  | callIndirect s =>
    -- the opcode is there before the signature is looked up, so it stays if there is none
    have hnumber : WriteM.Ahead (do WriteM.leb (← refs.signatures.number s)) (do WriteM.leb (← refs'.signatures.number s)) :=
      .lift (fun i hi => h.number_eq_ok hi) fun i => Leb128.unsigned_ne_nil _
    exact (WriteM.Ahead.refl (WriteM.byte (Instr.callIndirect 0).opcode)).seq hnumber

/-- The code of an expression under the extended tables is ahead of its code. -/
theorem ahead_write_expr (e : Expr) : WriteM.Ahead (e.write refs) (e.write refs') :=
  .forM h.ahead_write e.flatten

end Extends

end References

/-- Writing an expression adds bytes to a buffer and leaves those that are there; what it adds, and how it ends, is the same for all
buffers, whether or not it fails. Under tables that were extended, the same bytes are written if nothing failed before. If something
failed and no longer does, the bytes that the failure left are written first, and more after them. -/
theorem write_growing (refs : References) (e : Expr) :
    (∃ result bytes, (e.write refs).Adds result bytes) ∧
      ∀ refs', refs.Extends refs' →
        (∀ bytes, (e.write refs).Adds (.ok ()) bytes → (e.write refs').Adds (.ok ()) bytes) ∧
        ∀ err left bytes, (e.write refs).Adds (.error err) left → (e.write refs').Adds (.ok ()) bytes →
          left <+: bytes ∧ left ≠ bytes := by
  refine ⟨WriteM.exists_adds _, ?_⟩
  intro refs' h
  have hahead := h.ahead_write_expr e
  refine ⟨hahead.ok, ?_⟩
  intro err left bytes hleft hbytes
  obtain ⟨more, hmore, rfl⟩ := hahead.error err left bytes hleft hbytes
  exact ⟨List.prefix_append _ _, by simpa using hmore⟩

/-- The sample tables with one more function and one more signature. -/
def References.grownSample : References :=
  { References.sample with
    functionNumbers := References.sample.functionNumbers.insert "late" 5
    signatures := References.sample.signatures.insert ⟨some .i64, []⟩ }

theorem References.extends_grownSample : References.sample.Extends .grownSample where
  revision := rfl
  names := by
    intro name hname
    have hne : "late" ≠ name := by
      rintro rfl
      revert hname
      decide +kernel
    refine ⟨?_, rfl⟩
    show (References.sample.functionNumbers.insert "late" 5)[name]? = _
    rw [Std.TreeMap.getElem?_insert, if_neg (by simpa using hne)]
  signatures := Catalog.signatures_prefix_insertAll References.sample.signatures [⟨some .i64, []⟩]

/-- A block with a call of an imported function and a call through the table, the latter with a signature of the grown tables. -/
def Expr.lateCall : Expr :=
  .block [.call "log" [.i32Const 7], .callIndirect ⟨some .i64, []⟩ (.i32Const 1) []]

/-- Under the sample tables the code ends with the opcode of the call through the table; under the grown ones the number of the signature
and the end of the block follow. -/
theorem write_growing_lateCall :
    let left := [0x01, 0x10, 7, 0x18, 15, 0x10, 1, 0x17]
    let bytes := [0x01, 0x10, 7, 0x18, 15, 0x10, 1, 0x17, 1, 0x0f]
    References.sample.Extends .grownSample ∧
      (Expr.lateCall.write .sample).Adds (.error (.unregisteredSignature ⟨some .i64, []⟩)) left ∧
      (Expr.lateCall.write .grownSample).Adds (.ok ()) bytes ∧ left <+: bytes ∧ left ≠ bytes := by
  intro left bytes
  have hleft : (Expr.lateCall.write .sample).Adds (.error (.unregisteredSignature ⟨some .i64, []⟩)) left :=
    WriteM.adds_of_run_empty (by decide +kernel) (by decide +kernel)
  have hbytes : (Expr.lateCall.write .grownSample).Adds (.ok ()) bytes :=
    WriteM.adds_of_run_empty (by decide +kernel) (by decide +kernel)
  have hgrown := (write_growing .sample .lateCall).2 .grownSample References.extends_grownSample
  exact ⟨References.extends_grownSample, hleft, hbytes, hgrown.2 _ _ _ hleft hbytes⟩

end WasmBinary
