import WasmBinary.ByteReader
import WasmBinary.Proofs.Writing

/-!
# Reading back what was written

`Reads r bytes a` says that the reader `r` takes exactly `bytes` from the start of anything that begins with them, and gives `a`.
Readers in sequence read a concatenation (`Reads.bind`), so each writer has a reader that undoes it: numbers, floats, texts, types,
and lists with their length in front (`reads_counted`). A reader that is used up to the end of some bytes gives what it reads
(`Reads.whole`), and one that is repeated up to the end gives all the items that the bytes are made of (`toEnd_flatten`).
-/

namespace WasmBinary.ByteReader

variable {α β : Type}

/-- The reader takes exactly `bytes` from what begins with them, and gives `a`. -/
def Reads (r : ByteReader α) (bytes : List UInt8) (a : α) : Prop :=
  ∀ rest, r.run (bytes ++ rest) = some (a, rest)

theorem reads_pure (a : α) : Reads (pure a) [] a := fun _ => rfl

/-- Two readers in sequence read what the first reads, then what the second reads. -/
theorem Reads.bind {r : ByteReader α} {f : α → ByteReader β} {xs ys : List UInt8} {a : α} {b : β}
    (hr : Reads r xs a) (hf : Reads (f a) ys b) : Reads (r >>= f) (xs ++ ys) b := by
  intro rest
  rw [StateT.run_bind, List.append_assoc, hr]
  exact hf rest

/-- What is done with a value without reading on takes no more bytes. -/
theorem Reads.bind_nil {r : ByteReader α} {f : α → ByteReader β} {bytes : List UInt8} {a : α} {b : β}
    (hr : Reads r bytes a) (hf : Reads (f a) [] b) : Reads (r >>= f) bytes b := by
  rw [← List.append_nil bytes]
  exact hr.bind hf

/-- A reader whose value is changed reads the same bytes. -/
theorem Reads.map {r : ByteReader α} {bytes : List UInt8} {a : α} (hr : Reads r bytes a) (f : α → β) :
    Reads (r >>= fun x => pure (f x)) bytes (f a) :=
  hr.bind_nil (reads_pure (f a))

/-- A test that holds takes no bytes. -/
theorem Reads.guard_bind {p : Prop} [Decidable p] (hp : p) {r : ByteReader α} {bytes : List UInt8} {a : α}
    (hr : Reads r bytes a) : Reads (guard p >>= fun _ => r) bytes a := by
  intro rest
  rw [guard, if_pos hp]
  exact hr rest

theorem reads_byte (b : UInt8) : Reads byte [b] b := fun _ => rfl

theorem reads_expect (b : UInt8) : Reads (expect b) [b] () := by
  intro rest
  show (guard (b = b) : ByteReader Unit).run rest = _
  rw [guard, if_pos rfl]
  rfl

theorem reads_take (bytes : List UInt8) : Reads (take bytes.length) bytes bytes := by
  intro rest
  show (if bytes.length ≤ (bytes ++ rest).length then _ else none) = _
  rw [if_pos (by simp), List.take_left, List.drop_left]

/-! ## Numbers -/

/-- The four bytes of a word, put together again. -/
theorem word32_join (v : UInt32) :
    v.toUInt8.toUInt32 ||| (v >>> 8).toUInt8.toUInt32 <<< 8 ||| (v >>> 16).toUInt8.toUInt32 <<< 16 |||
      (v >>> 24).toUInt8.toUInt32 <<< 24 = v := by
  apply UInt32.eq_of_toBitVec_eq
  simp only [UInt32.toBitVec_or, UInt32.toBitVec_shiftLeft, UInt32.toBitVec_shiftRight, UInt8.toBitVec_toUInt32,
    UInt32.toBitVec_toUInt8]
  -- bit by bit: bit `i` comes from byte `i / 8`, and the other bytes are zero there
  ext i hi
  simp only [BitVec.getElem_or, BitVec.shiftLeft_eq', BitVec.ushiftRight_eq', BitVec.getElem_shiftLeft,
    BitVec.getElem_setWidth, BitVec.getLsbD_setWidth, BitVec.getLsbD_ushiftRight]
  simp
  grind

/-- The two halves of a word, put together again. -/
theorem word64_join (v : UInt64) : v.toUInt32.toUInt64 ||| (v >>> 32).toUInt32.toUInt64 <<< 32 = v := by
  apply UInt64.eq_of_toBitVec_eq
  simp only [UInt64.toBitVec_or, UInt64.toBitVec_shiftLeft, UInt64.toBitVec_shiftRight, UInt32.toBitVec_toUInt64,
    UInt64.toBitVec_toUInt32]
  ext i hi
  simp only [BitVec.getElem_or, BitVec.shiftLeft_eq', BitVec.ushiftRight_eq', BitVec.getElem_shiftLeft,
    BitVec.getElem_setWidth, BitVec.getLsbD_setWidth, BitVec.getLsbD_ushiftRight]
  simp
  grind

theorem reads_word32 (v : UInt32) : Reads word32 (littleEndian32 v) v := by
  intro rest
  show some (_, rest) = some (v, rest)
  rw [word32_join]

theorem reads_word64 (v : UInt64) : Reads word64 (littleEndian64 v) v := by
  unfold word64 littleEndian64
  refine (reads_word32 v.toUInt32).bind ((reads_word32 (v >>> 32).toUInt32).bind_nil ?_)
  rw [word64_join]
  exact reads_pure v

theorem reads_leb (v : UInt32) : Reads leb (Leb128.unsigned v.toNat) v := by
  have hread : Reads (Leb128.readUnsigned : ByteReader Nat) (Leb128.unsigned v.toNat) v.toNat :=
    fun rest => Leb128.readUnsigned_unsigned v.toNat rest
  unfold leb
  refine hread.bind_nil (Reads.guard_bind v.toNat_lt ?_)
  have hv : v.toNat.toUInt32 = v := UInt32.ofNat_toNat
  rw [hv]
  exact reads_pure v

/-- A length is read back as the number that it was written for. -/
theorem reads_length {n : Nat} (h : n < 0x100000000) : Reads leb (Leb128.unsigned n) n.toUInt32 := by
  have hn : n.toUInt32.toNat = n := UInt32.toNat_ofNat_of_lt' h
  have hr := reads_leb n.toUInt32
  rwa [hn] at hr

theorem reads_sleb32 (v : Int32) : Reads sleb32 (Leb128.signed v.toInt) v := by
  have hread : Reads (Leb128.readSigned : ByteReader Int) (Leb128.signed v.toInt) v.toInt :=
    fun rest => Leb128.readSigned_signed v.toInt rest
  unfold sleb32
  refine hread.bind_nil (Reads.guard_bind ⟨v.le_toInt, v.toInt_lt⟩ ?_)
  rw [Int32.ofInt_toInt]
  exact reads_pure v

theorem reads_sleb64 (v : Int64) : Reads sleb64 (Leb128.signed v.toInt) v := by
  have hread : Reads (Leb128.readSigned : ByteReader Int) (Leb128.signed v.toInt) v.toInt :=
    fun rest => Leb128.readSigned_signed v.toInt rest
  unfold sleb64
  refine hread.bind_nil (Reads.guard_bind ⟨v.le_toInt, v.toInt_lt⟩ ?_)
  rw [Int64.ofInt_toInt]
  exact reads_pure v

theorem reads_f32 (x : F32) : Reads f32 (littleEndian32 x.bits) x :=
  (reads_word32 x.bits).map F32.mk

theorem reads_f64 (x : F64) : Reads f64 (littleEndian64 x.bits) x :=
  (reads_word64 x.bits).map F64.mk

theorem reads_type (t : ValueType) : Reads type [t.tag] t := by
  intro rest
  show (liftM (ValueType.ofTag? t.tag) : ByteReader ValueType).run rest = _
  rw [ValueType.ofTag?_tag]
  rfl

/-! ## Blocks, texts and lists -/

theorem reads_block {bytes : List UInt8} (h : bytes.length < 0x100000000) :
    Reads block (Leb128.unsigned bytes.length ++ bytes) bytes := by
  have hn : bytes.length.toUInt32.toNat = bytes.length := UInt32.toNat_ofNat_of_lt' h
  refine (reads_length h).bind ?_
  rw [hn]
  exact reads_take bytes

/-- The characters of an ASCII text come back from their bytes. -/
theorem ofList_asciiBytes {s : String} (h : isAscii s = true) :
    String.ofList ((asciiBytes s).map fun b => Char.ofNat b.toNat) = s := by
  have hchar : ∀ c ∈ s.toList, Char.ofNat c.toNat.toUInt8.toNat = c := by
    intro c hc
    have hlt : c.toNat < 128 := by simpa using List.all_eq_true.1 h c hc
    rw [Leb128.toNat_toUInt8_of_lt (by omega), Char.ofNat_toNat]
  have hmap := List.map_congr_left hchar
  rw [List.map_id'] at hmap
  rw [asciiBytes, List.map_map]
  exact (congrArg String.ofList hmap).trans String.ofList_toList

/-- The bytes of an ASCII text are below 128. -/
theorem asciiBytes_lt {s : String} (h : isAscii s = true) : (asciiBytes s).all (· < 128) = true := by
  rw [List.all_eq_true]
  intro b hb
  obtain ⟨c, hc, rfl⟩ := List.mem_map.1 hb
  have hlt : c.toNat < 128 := by simpa using List.all_eq_true.1 h c hc
  have hbyte := Leb128.toNat_toUInt8_of_lt (by omega : c.toNat < 256)
  simp only [decide_eq_true_eq, UInt8.lt_iff_toNat_lt, hbyte]
  exact hlt

/-- A text that could be written is read back. -/
theorem reads_ascii {s : String} {bytes : List UInt8} (h : (WriteM.ascii s).toBytes = .ok bytes) : Reads ascii bytes s := by
  obtain ⟨hs, hlt, rfl⟩ := WriteM.toBytes_ascii_eq_ok.1 h
  have hblock : Reads block (Leb128.unsigned s.length ++ asciiBytes s) (asciiBytes s) := by
    rw [← length_asciiBytes]
    exact reads_block (by rw [length_asciiBytes]; exact hlt)
  unfold ascii
  refine hblock.bind_nil (Reads.guard_bind (asciiBytes_lt hs) ?_)
  rw [ofList_asciiBytes hs]
  exact reads_pure s

/-- Items that are read one by one are read in a row. -/
theorem reads_repeated {item : ByteReader α} {parts : List (List UInt8)} {values : List α}
    (h : List.Forall₂ (Reads item) parts values) : Reads (repeated item parts.length) parts.flatten values := by
  induction h with
  | nil => exact reads_pure []
  | cons hv _ ih =>
    rw [List.flatten_cons]
    exact hv.bind (ih.map _)

/-- A list whose items are each read back as something that stands in a relation to them is read back as such a list. -/
theorem reads_counted {item : α → WriteM Unit} [∀ a, (item a).Appends] {r : ByteReader β} {R : α → β → Prop}
    {items : List α} {bytes : List UInt8} (h : (WriteM.counted item items).toBytes = .ok bytes)
    (hread : ∀ a ∈ items, ∀ part, (item a).toBytes = .ok part → ∃ b, R a b ∧ Reads r part b) :
    ∃ values, List.Forall₂ R items values ∧ Reads (counted r) bytes values := by
  obtain ⟨hlt, parts, hparts, rfl⟩ := WriteM.toBytes_counted_eq_ok.1 h
  have hvalues : ∃ values, List.Forall₂ R items values ∧ List.Forall₂ (Reads r) parts values := by
    clear h hlt
    induction hparts with
    | nil => exact ⟨[], .nil, .nil⟩
    | @cons a part items parts hpart _ ih =>
      obtain ⟨values, hR, hr⟩ := ih fun a ha => hread a (List.mem_cons_of_mem _ ha)
      obtain ⟨b, hb, hbr⟩ := hread a List.mem_cons_self part hpart
      exact ⟨b :: values, .cons hb hR, .cons hbr hr⟩
  obtain ⟨values, hR, hr⟩ := hvalues
  refine ⟨values, hR, (reads_length hlt).bind ?_⟩
  have hn : items.length.toUInt32.toNat = parts.length := by
    rw [UInt32.toNat_ofNat_of_lt' hlt]
    exact hparts.length_eq
  rw [hn]
  exact reads_repeated hr

/-- A list whose items are each read back as a function of them is read back as the list of its values. -/
theorem reads_counted_map {item : α → WriteM Unit} [∀ a, (item a).Appends] {r : ByteReader β} (f : α → β)
    {items : List α} {bytes : List UInt8} (h : (WriteM.counted item items).toBytes = .ok bytes)
    (hread : ∀ a ∈ items, ∀ part, (item a).toBytes = .ok part → Reads r part (f a)) :
    Reads (counted r) bytes (items.map f) := by
  have hex : ∃ values, List.Forall₂ (fun a b => f a = b) items values ∧ Reads (counted r) bytes values :=
    reads_counted h fun a ha part hpart => ⟨f a, rfl, hread a ha part hpart⟩
  obtain ⟨values, hR, hr⟩ := hex
  have hvalues : items.map f = values := by
    rw [← List.forall₂_eq_eq_eq, List.forall₂_map_left_iff]
    exact hR
  rw [hvalues]
  exact hr

/-! ## Writers and readers side by side -/

/-- Whatever the writer writes, the reader reads back as `a`. -/
def ReadBy (w : WriteM Unit) (r : ByteReader α) (a : α) : Prop :=
  ∀ bytes, w.toBytes = .ok bytes → Reads r bytes a

/-- Writers in sequence are read by readers in sequence. -/
theorem ReadBy.seq {x y : WriteM Unit} {r : ByteReader α} {f : α → ByteReader β} {a : α} {b : β} [y.Appends]
    (hx : ReadBy x r a) (h : ReadBy y (f a) b) : ReadBy (x >>= fun _ => y) (r >>= f) b := by
  intro bytes hbytes
  obtain ⟨xs, ys, hxs, hys, rfl⟩ := WriteM.toBytes_seq_eq_ok.1 hbytes
  exact (hx xs hxs).bind (h ys hys)

theorem ReadBy.map {x : WriteM Unit} {r : ByteReader α} {a : α} (hx : ReadBy x r a) (f : α → β) :
    ReadBy x (r >>= fun v => pure (f v)) (f a) :=
  fun bytes hbytes => (hx bytes hbytes).map f

theorem readBy_leb (v : UInt32) : ReadBy (WriteM.leb v) leb v := by
  intro bytes h
  rw [WriteM.toBytes_leb] at h
  cases h
  exact reads_leb v

theorem readBy_byte (v : UInt8) : ReadBy (WriteM.byte v) byte v := by
  intro bytes h
  rw [WriteM.toBytes_byte] at h
  cases h
  exact reads_byte v

theorem readBy_expect (v : UInt8) : ReadBy (WriteM.byte v) (expect v) () := by
  intro bytes h
  rw [WriteM.toBytes_byte] at h
  cases h
  exact reads_expect v

theorem readBy_type (t : ValueType) : ReadBy (WriteM.type t) type t := by
  intro bytes h
  rw [WriteM.toBytes_type] at h
  cases h
  exact reads_type t

theorem readBy_ascii (s : String) : ReadBy (WriteM.ascii s) ascii s :=
  fun _ h => reads_ascii h

/-- A length is read back as the number that it was written for. -/
theorem readBy_len (n : Nat) : ReadBy (WriteM.len n) leb n.toUInt32 := by
  intro bytes h
  obtain ⟨hlt, rfl⟩ := WriteM.toBytes_len_eq_ok.1 h
  exact reads_length hlt

/-- Bytes after their length are read as a block. -/
theorem readBy_block {bytes : List UInt8} {w : WriteM Unit} [w.Appends] (h : w.toBytes = .ok bytes) :
    ReadBy (WriteM.len bytes.length >>= fun _ => w) block bytes := by
  intro all hall
  obtain ⟨xs, ys, hxs, hys, rfl⟩ := WriteM.toBytes_seq_eq_ok.1 hall
  obtain ⟨hlt, rfl⟩ := WriteM.toBytes_len_eq_ok.1 hxs
  rw [h] at hys
  cases hys
  exact reads_block hlt

/-- A list of items is read back as the list of what its items are read back as. -/
theorem readBy_counted {item : α → WriteM Unit} [∀ a, (item a).Appends] {r : ByteReader β} {f : α → β}
    (hread : ∀ a, ReadBy (item a) r (f a)) (items : List α) :
    ReadBy (WriteM.counted item items) (counted r) (items.map f) :=
  fun _ h => reads_counted_map f h fun a _ => hread a

/-! ## Up to the end -/

/-- A reader that takes all of some bytes gives what it reads. -/
theorem Reads.whole {r : ByteReader α} {bytes : List UInt8} {a : α} (h : Reads r bytes a) : r.whole bytes = some a := by
  have hr := h []
  rw [List.append_nil] at hr
  rw [ByteReader.whole, hr]

/-- A reader that refuses the empty list of bytes reads no item of no bytes. -/
theorem Reads.ne_nil {r : ByteReader α} {bytes : List UInt8} {a : α} (h : Reads r bytes a) (hnil : r.run [] = none) :
    bytes ≠ [] := by
  rintro rfl
  have hr := h []
  rw [List.append_nil, hnil] at hr
  nomatch hr

/-- Bytes that are made of items, none of them empty, are read to the end as these items. -/
theorem toEnd_flatten {item : ByteReader α} {parts : List (List UInt8)} {values : List α}
    (h : List.Forall₂ (Reads item) parts values) (hne : ∀ part ∈ parts, part ≠ []) :
    toEnd item parts.flatten = some values := by
  induction h with
  | nil => rw [List.flatten_nil, toEnd, if_pos List.isEmpty_nil]
  | @cons part a parts values hpart _ ih =>
    have hpos : 0 < part.length := List.length_pos_iff.2 (hne part List.mem_cons_self)
    rw [List.flatten_cons, toEnd, if_neg]
    · rw [hpart]
      simp only [List.length_append]
      rw [if_pos (by omega), ih fun part hp => hne part (List.mem_cons_of_mem _ hp)]
      rfl
    · rw [List.isEmpty_iff]
      intro hnil
      rw [List.append_eq_nil_iff] at hnil
      exact hne part List.mem_cons_self hnil.1

end WasmBinary.ByteReader
