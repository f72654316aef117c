import WasmBinary.ByteWriter
import WasmBinary.Proofs.Lists

/-!
# What a computation writes

Every writer of this library only adds to its buffer, and neither what it adds nor whether it fails depends on what is there
already (`Appends`). So a writer is known by what it gives on an empty buffer, `WriteM.toBytes`, and a sequence of writers gives
the concatenation of what its parts give, or the error of the first part that fails (`toBytes_seq`, `toBytes_forM`,
`toBytes_counted`).
-/

namespace WasmBinary

namespace EncodeError

variable {α β : Type}

theorem exists_of_isOk {x : Except EncodeError α} (h : x.isOk = true) : ∃ a, x = .ok a := by
  cases x with
  | ok a => exact ⟨a, rfl⟩
  | error e => nomatch h

/-- A sequence of two computations succeeds exactly when the first does and the second does on its value. -/
theorem bind_eq_ok {x : Except EncodeError α} {f : α → Except EncodeError β} {b : β} :
    (x >>= f) = .ok b ↔ ∃ a, x = .ok a ∧ f a = .ok b := by
  cases x with
  | ok a => exact ⟨fun h => ⟨a, rfl, h⟩, fun ⟨_, ha, h⟩ => by cases ha; exact h⟩
  | error e => exact ⟨fun h => (nomatch h), fun ⟨_, ha, _⟩ => (nomatch ha)⟩

/-- A mapped computation succeeds exactly when the computation does. -/
theorem map_eq_ok {x : Except EncodeError α} {f : α → β} {b : β} :
    f <$> x = .ok b ↔ ∃ a, x = .ok a ∧ f a = b := by
  cases x with
  | ok a => exact ⟨fun h => ⟨a, rfl, Except.ok.inj h⟩, fun ⟨_, ha, h⟩ => by cases ha; exact congrArg _ h⟩
  | error e => exact ⟨fun h => (nomatch h), fun ⟨_, ha, _⟩ => (nomatch ha)⟩

/-- A computation for each item succeeds exactly when each does, and then gives the values in order. -/
theorem mapM_eq_ok {f : α → Except EncodeError β} {items : List α} {values : List β} :
    items.mapM f = .ok values ↔ List.Forall₂ (fun a b => f a = .ok b) items values := by
  induction items generalizing values with
  | nil =>
    rw [List.mapM_nil, List.forall₂_nil_left_iff]
    exact ⟨fun h => (Except.ok.inj h).symm, fun h => congrArg _ h.symm⟩
  | cons a items ih =>
    rw [List.mapM_cons, bind_eq_ok]
    constructor
    · rintro ⟨b, hb, h⟩
      obtain ⟨bs, hbs, h⟩ := bind_eq_ok.1 h
      cases h
      exact List.Forall₂.cons hb (ih.1 hbs)
    · intro h
      cases h with
      | cons hb hbs => exact ⟨_, hb, bind_eq_ok.2 ⟨_, ih.2 hbs, rfl⟩⟩

/-- A value that is changed for each item is changed in the list of values. -/
theorem mapM_map_value {γ : Type} (f : α → Except EncodeError β) (g : β → γ) (items : List α) :
    (items.mapM fun a => g <$> f a) = List.map g <$> items.mapM f := by
  induction items with
  | nil => rfl
  | cons a items ih =>
    rw [List.mapM_cons, List.mapM_cons, ih]
    simp only [map_eq_pure_bind, bind_assoc, pure_bind, List.map_cons]

/-- With a state, too, a sequence succeeds exactly when its parts do, one after the other. -/
theorem run_bind_eq_ok {σ : Type} {x : EStateM EncodeError σ α} {f : α → EStateM EncodeError σ β} {s s'' : σ} {b : β} :
    (x >>= f).run s = .ok b s'' ↔ ∃ a s', x.run s = .ok a s' ∧ (f a).run s' = .ok b s'' := by
  rw [EStateM.run_bind]
  cases x.run s with
  | ok a s' => exact ⟨fun h => ⟨a, s', rfl, h⟩, fun ⟨_, _, ha, h⟩ => by cases ha; exact h⟩
  | error e s' => exact ⟨fun h => (nomatch h), fun ⟨_, _, ha, _⟩ => (nomatch ha)⟩

/-- A computation without a state leaves the state as it is. -/
theorem run_lift_eq_ok {σ : Type} {x : Except EncodeError α} {s s' : σ} {a : α} :
    (liftM x : EStateM EncodeError σ α).run s = .ok a s' ↔ x = .ok a ∧ s = s' := by
  cases x with
  | ok b => exact ⟨fun h => by cases h; exact ⟨rfl, rfl⟩, fun ⟨h, h'⟩ => by cases h; cases h'; rfl⟩
  | error e => exact ⟨fun h => (nomatch h), fun h => (nomatch h.1)⟩

/-- A computation without a state comes before what is done with its value in the same state. -/
theorem run_lift_bind_eq_ok {σ : Type} {x : Except EncodeError α} {f : α → EStateM EncodeError σ β} {s s' : σ} {b : β} :
    (liftM x >>= f).run s = .ok b s' ↔ ∃ a, x = .ok a ∧ (f a).run s = .ok b s' := by
  cases x with
  | ok a => exact ⟨fun h => ⟨a, rfl, h⟩, fun ⟨_, ha, h⟩ => by cases ha; exact h⟩
  | error e => exact ⟨fun h => (nomatch h), fun ⟨_, ha, _⟩ => (nomatch ha)⟩

/-- With a state, a sequence fails exactly when one of its parts does, the first one first. -/
theorem run_bind_eq_error {σ : Type} {x : EStateM EncodeError σ α} {f : α → EStateM EncodeError σ β} {s s'' : σ}
    {e : EncodeError} :
    (x >>= f).run s = .error e s'' ↔
      x.run s = .error e s'' ∨ ∃ a s', x.run s = .ok a s' ∧ (f a).run s' = .error e s'' := by
  rw [EStateM.run_bind]
  cases x.run s with
  | ok a s' =>
    constructor
    · intro h
      exact .inr ⟨a, s', rfl, h⟩
    · rintro (h | ⟨_, _, ha, h⟩)
      · nomatch h
      · cases ha
        exact h
  | error e' s' =>
    constructor
    · intro h
      cases h
      exact .inl rfl
    · rintro (h | ⟨_, _, ha, _⟩)
      · cases h
        rfl
      · nomatch ha

/-- A computation without a state that fails leaves the state as it is. -/
theorem run_lift_bind_eq_error {σ : Type} {x : Except EncodeError α} {f : α → EStateM EncodeError σ β} {s s' : σ}
    {e : EncodeError} :
    (liftM x >>= f).run s = .error e s' ↔ (x = .error e ∧ s' = s) ∨ ∃ a, x = .ok a ∧ (f a).run s = .error e s' := by
  cases x with
  | ok a =>
    constructor
    · intro h
      exact .inr ⟨a, rfl, h⟩
    · rintro (⟨h, _⟩ | ⟨_, ha, h⟩)
      · nomatch h
      · cases ha
        exact h
  | error e' =>
    constructor
    · intro h
      cases h
      exact .inl ⟨rfl, rfl⟩
    · rintro (⟨h, rfl⟩ | ⟨_, ha, _⟩)
      · cases h
        rfl
      · nomatch ha

/-- A computation for each item of a list succeeds exactly when it does for the first and then for the others. -/
theorem run_mapM_cons_eq_ok {σ : Type} {f : α → EStateM EncodeError σ β} {a : α} {items : List α} {s s' : σ} {values : List β} :
    ((a :: items).mapM f).run s = .ok values s' ↔ ∃ b rest s₁, (f a).run s = .ok b s₁ ∧ (items.mapM f).run s₁ = .ok rest s' ∧
      values = b :: rest := by
  rw [List.mapM_cons, run_bind_eq_ok]
  constructor
  · rintro ⟨b, s₁, hb, h⟩
    obtain ⟨rest, s₂, hrest, h⟩ := run_bind_eq_ok.1 h
    cases h
    exact ⟨b, rest, s₁, hb, hrest, rfl⟩
  · rintro ⟨b, rest, s₁, hb, hrest, rfl⟩
    exact ⟨b, s₁, hb, run_bind_eq_ok.2 ⟨rest, s', hrest, rfl⟩⟩

/-- There is a value for each item. -/
theorem length_of_run_mapM {σ : Type} {f : α → EStateM EncodeError σ β} {items : List α} {s s' : σ} {values : List β}
    (h : (items.mapM f).run s = .ok values s') : values.length = items.length := by
  induction items generalizing s values with
  | nil =>
    cases h
    rfl
  | cons a items ih =>
    obtain ⟨b, rest, s₁, -, hrest, rfl⟩ := run_mapM_cons_eq_ok.1 h
    rw [List.length_cons, List.length_cons, ih hrest]

/-- A computation for each item fails exactly when it does for some item, after it succeeded for those before. -/
theorem run_mapM_eq_error {σ : Type} {f : α → EStateM EncodeError σ β} {items : List α} {s s' : σ} {e : EncodeError} :
    (items.mapM f).run s = .error e s' ↔ ∃ done a rest values s₁, items = done ++ a :: rest ∧
      (done.mapM f).run s = .ok values s₁ ∧ (f a).run s₁ = .error e s' := by
  induction items generalizing s with
  | nil =>
    constructor
    · intro h
      nomatch h
    · rintro ⟨done, a, rest, _, _, h, _⟩
      simp at h
  | cons a items ih =>
    rw [List.mapM_cons, run_bind_eq_error]
    constructor
    · rintro (h | ⟨b, s₁, hb, h⟩)
      · exact ⟨[], a, items, [], s, rfl, rfl, h⟩
      · rcases run_bind_eq_error.1 h with h | ⟨_, _, _, h⟩
        · obtain ⟨done, a', rest, values, s₂, rfl, hvalues, herror⟩ := ih.1 h
          exact ⟨a :: done, a', rest, b :: values, s₂, rfl, run_mapM_cons_eq_ok.2 ⟨b, values, s₁, hb, hvalues, rfl⟩, herror⟩
        · nomatch h
    · rintro ⟨done, a', rest, values, s₁, hitems, hvalues, herror⟩
      cases done with
      | nil =>
        obtain ⟨rfl, rfl⟩ := List.cons.inj hitems
        cases hvalues
        exact .inl herror
      | cons b done =>
        obtain ⟨rfl, rfl⟩ := List.cons.inj hitems
        obtain ⟨v, vs, s₂, hv, hvs, -⟩ := run_mapM_cons_eq_ok.1 hvalues
        exact .inr ⟨v, s₂, hv, run_bind_eq_error.2 (.inl (ih.2 ⟨done, a', rest, vs, _, rfl, hvs, herror⟩))⟩

/-- A computation for the items of two lists in a row. -/
theorem run_mapM_append_eq_ok {σ : Type} {f : α → EStateM EncodeError σ β} {items items' : List α} {s s' : σ}
    {values : List β} :
    ((items ++ items').mapM f).run s = .ok values s' ↔ ∃ first second s₁, (items.mapM f).run s = .ok first s₁ ∧
      (items'.mapM f).run s₁ = .ok second s' ∧ values = first ++ second := by
  rw [List.mapM_append, run_bind_eq_ok]
  constructor
  · rintro ⟨first, s₁, hfirst, h⟩
    obtain ⟨second, s₂, hsecond, h⟩ := run_bind_eq_ok.1 h
    cases h
    exact ⟨first, second, s₁, hfirst, hsecond, rfl⟩
  · rintro ⟨first, second, s₁, hfirst, hsecond, rfl⟩
    exact ⟨first, s₁, hfirst, run_bind_eq_ok.2 ⟨second, s', hsecond, rfl⟩⟩

end EncodeError

/-- A computation that cannot fail, done for each item of a list, is done for the first and then for the others. -/
theorem run_mapM_cons {σ α β : Type} (f : α → StateM σ β) (a : α) (items : List α) (s : σ) :
    ((a :: items).mapM f).run s =
      (((f a).run s).1 :: ((items.mapM f).run ((f a).run s).2).1, ((items.mapM f).run ((f a).run s).2).2) := by
  rw [List.mapM_cons]
  rfl

/-- A number that fits is narrowed to its word. -/
theorem narrow_of_lt (what : String) {n : Nat} (h : n < 0x100000000) : narrow what n = .ok n.toUInt32 :=
  if_pos h

/-- A number that was narrowed fits, and its word stands for it. -/
theorem narrow_eq_ok {what : String} {n : Nat} {v : UInt32} (h : narrow what n = .ok v) :
    n < 0x100000000 ∧ v.toNat = n := by
  unfold narrow at h
  split at h
  · rename_i hn
    cases h
    exact ⟨hn, UInt32.toNat_ofNat_of_lt' hn⟩
  · nomatch h

theorem length_asciiBytes (s : String) : (asciiBytes s).length = s.length := by
  rw [asciiBytes, List.length_map, String.length_toList]

namespace WriteM

variable {α β : Type}

/-- The result of a computation, with bytes put before those in its buffer. -/
def onto (b : Buffer) : EStateM.Result EncodeError Buffer α → EStateM.Result EncodeError Buffer α
  | .ok a s => .ok a (b ++ s)
  | .error e s => .error e (b ++ s)

/-- The computation only adds to the buffer, and does so in the same way whatever the buffer holds. -/
class Appends (w : WriteM α) : Prop where
  run_eq_onto : ∀ b : Buffer, w.run b = onto b (w.run #[])

instance appends_pure (a : α) : Appends (pure a : WriteM α) where
  run_eq_onto b := by
    show EStateM.Result.ok a b = .ok a (b ++ #[])
    rw [Array.append_empty]

instance appends_throw (e : EncodeError) : Appends (throw e : WriteM α) where
  run_eq_onto b := by
    show EStateM.Result.error e b = .error e (b ++ #[])
    rw [Array.append_empty]

/-- A computation without a buffer adds nothing. -/
instance appends_lift (x : Except EncodeError α) : Appends (liftM x : WriteM α) := by
  cases x with
  | ok a => exact appends_pure a
  | error e => exact appends_throw e

instance appends_raw (bytes : List UInt8) : Appends (raw bytes) where
  run_eq_onto b := by
    show EStateM.Result.ok () (b ++ bytes) = .ok () (b ++ ((#[] : Buffer) ++ bytes))
    refine congrArg _ (Array.toList_inj.mp ?_)
    simp

theorem byte_eq_raw (v : UInt8) : byte v = raw [v] := by
  funext b
  show EStateM.Result.ok () (b.push v) = .ok () (b ++ [v])
  refine congrArg _ (Array.toList_inj.mp ?_)
  simp

instance appends_byte (v : UInt8) : Appends (byte v) := by
  rw [byte_eq_raw]
  infer_instance

/-- A sequence of computations that only add to the buffer only adds to it. -/
instance appends_bind {x : WriteM α} {f : α → WriteM β} [Appends x] [∀ a, Appends (f a)] : Appends (x >>= f) where
  run_eq_onto b := by
    rw [EStateM.run_bind, EStateM.run_bind, ‹Appends x›.run_eq_onto b]
    cases x.run #[] with
    | error e s => rfl
    | ok a s =>
      simp only [onto]
      rw [Appends.run_eq_onto (b ++ s), Appends.run_eq_onto s]
      cases (f a).run #[] with
      | ok c t => simp only [onto, Array.append_assoc]
      | error e t => simp only [onto, Array.append_assoc]

instance appends_leb (v : UInt32) : Appends (leb v) :=
  appends_raw _

instance appends_len (n : Nat) : Appends (len n) :=
  appends_bind

instance appends_ascii (s : String) : Appends (ascii s) := by
  unfold ascii
  split <;> infer_instance

instance appends_type (t : ValueType) : Appends (type t) :=
  appends_byte t.tag

/-- Writing the items of a list one after another only adds to the buffer if each item does. -/
instance appends_forM {item : α → WriteM Unit} [∀ a, Appends (item a)] (items : List α) : Appends (items.forM item) := by
  induction items with
  | nil => exact appends_pure _
  | cons a items ih => exact appends_bind

instance appends_counted {item : α → WriteM Unit} [∀ a, Appends (item a)] (items : List α) : Appends (counted item items) :=
  appends_bind

instance appends_chunked (size : Nat) (bytes : List UInt8) : Appends (chunked size bytes) where
  run_eq_onto b := by
    rw [run_chunked, run_chunked]
    refine congrArg _ (Array.toList_inj.mp ?_)
    simp

/-! ## The bytes of a sequence -/

theorem toBytes_raw (bytes : List UInt8) : (raw bytes).toBytes = .ok bytes := by
  simp [toBytes]

theorem toBytes_byte (v : UInt8) : (byte v).toBytes = .ok [v] := by
  rw [byte_eq_raw, toBytes_raw]

theorem toBytes_leb (v : UInt32) : (leb v).toBytes = .ok (Leb128.unsigned v.toNat) :=
  toBytes_raw _

theorem toBytes_type (t : ValueType) : (type t).toBytes = .ok [t.tag] :=
  toBytes_byte _

theorem toBytes_chunked (size : Nat) (bytes : List UInt8) : (chunked size bytes).toBytes = .ok bytes := by
  unfold toBytes
  rw [run_chunked]
  simp

/-- What a computation writes to an empty buffer it adds to any other. -/
theorem run_of_toBytes {w : WriteM Unit} [Appends w] {bytes : List UInt8} (h : w.toBytes = .ok bytes) (b : Buffer) :
    w.run b = .ok () (b ++ bytes) := by
  unfold toBytes at h
  rw [Appends.run_eq_onto b]
  cases hrun : w.run #[] with
  | error e s =>
    rw [hrun] at h
    nomatch h
  | ok u s =>
    rw [hrun] at h
    obtain rfl := Except.ok.inj h
    refine congrArg _ (Array.toList_inj.mp ?_)
    simp

/-- A computation without a buffer comes before what is written with its value. -/
theorem toBytes_lift_bind (x : Except EncodeError α) (f : α → WriteM Unit) :
    (liftM x >>= f : WriteM Unit).toBytes = x >>= fun a => (f a).toBytes := by
  cases x with
  | ok a => rfl
  | error e => rfl

/-- Two computations in sequence write the bytes of the first, then those of the second. -/
theorem toBytes_seq {x y : WriteM Unit} [Appends y] :
    (x >>= fun _ => y).toBytes = (do return (← x.toBytes) ++ (← y.toBytes)) := by
  unfold toBytes
  rw [EStateM.run_bind]
  cases x.run #[] with
  | error e s => rfl
  | ok a s =>
    simp only []
    rw [Appends.run_eq_onto s]
    cases y.run #[] with
    | error e t => rfl
    | ok a t =>
      show Except.ok (s ++ t).toList = Except.ok (s.toList ++ t.toList)
      rw [Array.toList_append]

/-- A sequence of two computations writes `bytes` exactly when they fall into what each writes. -/
theorem toBytes_seq_eq_ok {x y : WriteM Unit} [Appends y] {bytes : List UInt8} :
    (x >>= fun _ => y).toBytes = .ok bytes ↔ ∃ a b, x.toBytes = .ok a ∧ y.toBytes = .ok b ∧ bytes = a ++ b := by
  rw [toBytes_seq, EncodeError.bind_eq_ok]
  constructor
  · rintro ⟨a, ha, h⟩
    obtain ⟨b, hb, h⟩ := EncodeError.bind_eq_ok.1 h
    exact ⟨a, b, ha, hb, (Except.ok.inj h).symm⟩
  · rintro ⟨a, b, ha, hb, rfl⟩
    exact ⟨a, ha, EncodeError.bind_eq_ok.2 ⟨b, hb, rfl⟩⟩

theorem toBytes_len (n : Nat) : (len n).toBytes = (fun v => Leb128.unsigned v.toNat) <$> narrow "length" n := by
  unfold len
  rw [toBytes_lift_bind]
  cases narrow "length" n with
  | ok v => exact toBytes_leb v
  | error e => rfl

/-- A length is written exactly when it fits in 32 bits, and then as itself. -/
theorem toBytes_len_eq_ok {n : Nat} {bytes : List UInt8} :
    (len n).toBytes = .ok bytes ↔ n < 0x100000000 ∧ bytes = Leb128.unsigned n := by
  rw [toBytes_len, EncodeError.map_eq_ok]
  constructor
  · rintro ⟨v, hv, rfl⟩
    obtain ⟨hn, hv⟩ := narrow_eq_ok hv
    exact ⟨hn, by rw [hv]⟩
  · rintro ⟨hn, rfl⟩
    exact ⟨n.toUInt32, narrow_of_lt _ hn, by rw [(narrow_eq_ok (narrow_of_lt "length" hn)).2]⟩

/-- A length that does not fit in 32 bits is refused. -/
theorem toBytes_len_eq_error {n : Nat} {e : EncodeError} :
    (len n).toBytes = .error e ↔ 0x100000000 ≤ n ∧ e = .outOfRange "length" n := by
  rw [toBytes_len]
  unfold narrow
  split
  · constructor
    · intro h
      nomatch h
    · intro h
      omega
  · constructor
    · intro h
      cases h
      exact ⟨by omega, rfl⟩
    · rintro ⟨-, rfl⟩
      rfl

/-- A text is written exactly when it is ASCII and its length fits in 32 bits. -/
theorem toBytes_ascii_eq_ok {s : String} {bytes : List UInt8} :
    (ascii s).toBytes = .ok bytes ↔
      isAscii s = true ∧ s.length < 0x100000000 ∧ bytes = Leb128.unsigned s.length ++ asciiBytes s := by
  unfold ascii
  split
  · rename_i hs
    rw [toBytes_lift_bind, EncodeError.bind_eq_ok]
    constructor
    · rintro ⟨v, hv, h⟩
      obtain ⟨a, b, ha, hb, rfl⟩ := toBytes_seq_eq_ok.1 h
      obtain ⟨hlt, hv⟩ := narrow_eq_ok hv
      rw [toBytes_leb] at ha
      rw [toBytes_raw] at hb
      cases ha
      cases hb
      exact ⟨hs, hlt, by rw [hv]⟩
    · rintro ⟨-, hlt, rfl⟩
      have hv := narrow_of_lt "string length" hlt
      refine ⟨_, hv, toBytes_seq_eq_ok.2 ⟨_, _, toBytes_leb _, toBytes_raw _, ?_⟩⟩
      rw [(narrow_eq_ok hv).2]
  · rename_i hs
    exact ⟨fun h => (nomatch h), fun h => absurd h.1 hs⟩

/-- The items of a list are written one after another. -/
theorem toBytes_forM {item : α → WriteM Unit} [∀ a, Appends (item a)] (items : List α) :
    (items.forM item).toBytes = List.flatten <$> items.mapM fun a => (item a).toBytes := by
  induction items with
  | nil => rfl
  | cons a items ih =>
    show (item a >>= fun _ => items.forM item).toBytes = _
    rw [toBytes_seq, ih, List.mapM_cons]
    cases (item a).toBytes with
    | error e => rfl
    | ok bytes =>
      cases items.mapM fun a => (item a).toBytes with
      | error e => rfl
      | ok rest => rfl

/-- A list is written as its length and its items, each in full. -/
theorem toBytes_counted_eq_ok {item : α → WriteM Unit} [∀ a, Appends (item a)] {items : List α} {bytes : List UInt8} :
    (counted item items).toBytes = .ok bytes ↔
      items.length < 0x100000000 ∧ ∃ parts, List.Forall₂ (fun a part => (item a).toBytes = .ok part) items parts ∧
        bytes = Leb128.unsigned items.length ++ parts.flatten := by
  unfold counted
  rw [toBytes_seq_eq_ok]
  constructor
  · rintro ⟨a, b, ha, hb, rfl⟩
    obtain ⟨hlt, rfl⟩ := toBytes_len_eq_ok.1 ha
    rw [toBytes_forM, EncodeError.map_eq_ok] at hb
    obtain ⟨parts, hparts, rfl⟩ := hb
    exact ⟨hlt, parts, EncodeError.mapM_eq_ok.1 hparts, rfl⟩
  · rintro ⟨hlt, parts, hparts, rfl⟩
    refine ⟨_, _, toBytes_len_eq_ok.2 ⟨hlt, rfl⟩, ?_, rfl⟩
    rw [toBytes_forM, EncodeError.map_eq_ok]
    exact ⟨parts, EncodeError.mapM_eq_ok.2 hparts, rfl⟩

end WriteM

end WasmBinary
