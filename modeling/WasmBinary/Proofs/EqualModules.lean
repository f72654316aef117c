import WasmBinary.Proofs.Interleaving
import WasmBinary.Proofs.ModuleEquality
import WasmBinary.Proofs.Revisions
import WasmBinary.Proofs.SectionFraming

/-!
# Rendering equal modules

Equality of modules overlooks two things that a binary shows: the order of the functions and the signs of zeros. Equal modules whose
functions stand in the same order are the same once every zero has lost its sign (`Module.unsignZeros_eq_of_beq`), so they are the same if
there are no zeros in them (`Module.eq_of_beq`). If there are, only bytes of constants differ: numbering a module has nothing to do with its
constants (`Module.plainNumbering_unsignZeros`), dropping signs before or after an expression is laid out as instructions comes to the same
(`Expr.flatten_unsignZeros`), and the bytes of the two zeros differ in a sign bit that stands alone in its byte (`SameButSign`). All
lengths are the same, so every stage of rendering ends alike with and without the signs (`Module.endsAlike_render`).
-/

namespace WasmBinary

/-! ## Zeros in expressions -/

/-- A zero that is replaced by a zero stays a zero, and what is no zero is kept. -/
theorem isZero_ite_zero {α : Type} {isZero : α → Bool} {zero : α} (hzero : isZero zero = true) (x : α) :
    isZero (if isZero x then zero else x) = isZero x := by
  split
  · rename_i hx
    rw [hx, hzero]
  · rfl

theorem F32.isZero_unsignZero (x : F32) : x.unsignZero.isZero = x.isZero := isZero_ite_zero (by decide) x

theorem F64.isZero_unsignZero (x : F64) : x.unsignZero.isZero = x.isZero := isZero_ite_zero (by decide) x

namespace Expr

/-- A float constant that is a zero, of either sign. -/
def isZero : Expr → Bool
  | f32Const x => x.isZero
  | f64Const x => x.isZero
  | _ => false

theorem unsignZerosAll_eq_map (es : List Expr) : unsignZerosAll es = es.map unsignZeros := by
  induction es with
  | nil => rfl
  | cons e es ih => rw [unsignZerosAll, ih, List.map_cons]

theorem children_unsignZeros (e : Expr) : e.unsignZeros.children = e.children.map unsignZeros := by
  cases e <;> simp [unsignZeros, children, unsignZerosAll_eq_map]

theorem isZero_unsignZeros (e : Expr) : e.unsignZeros.isZero = e.isZero := by
  cases e with
  | f32Const x => exact x.isZero_unsignZero
  | f64Const x => exact x.isZero_unsignZero
  | _ => rfl

/-- A zero stays a zero without its sign. -/
theorem lacks_isZero_unsignZeros {e : Expr} : e.unsignZeros.Lacks isZero ↔ e.Lacks isZero := by
  induction e using childInduction with
  | step e ih =>
    rw [lacks_iff, lacks_iff (e := e), isZero_unsignZeros, children_unsignZeros, List.forall_mem_map]
    exact and_congr_right fun _ => forall₂_congr ih

theorem unsignZerosAll_eq_self {es : List Expr} : unsignZerosAll es = es ↔ ∀ e ∈ es, e.unsignZeros = e := by
  induction es with
  | nil => simp [unsignZerosAll]
  | cons e es ih => simp [unsignZerosAll, ih]

/-- Where there is no zero, no sign is lost. -/
theorem unsignZeros_of_lacks {e : Expr} (h : e.Lacks isZero) : e.unsignZeros = e := by
  induction e using childInduction with
  | step e ih =>
    obtain ⟨he, hchildren⟩ := lacks_iff.1 h
    have hsame : ∀ c ∈ e.children, c.unsignZeros = c := fun c hc => ih c hc (hchildren c hc)
    clear h ih hchildren
    cases e <;> simp_all [unsignZeros, children, unsignZerosAll_eq_self, isZero, F32.unsignZero, F64.unsignZero, or_imp, forall_and]

end Expr

/-! ## Modules without the signs of zeros -/

namespace Function

theorem body_unsignZeros (f : Function) : f.unsignZeros.body = f.body.map Expr.unsignZeros :=
  Expr.unsignZerosAll_eq_map f.body

theorem lacks_isZero_unsignZeros {f : Function} : f.unsignZeros.Lacks Expr.isZero ↔ f.Lacks Expr.isZero := by
  simp only [Lacks, body_unsignZeros, List.forall_mem_map, Expr.lacks_isZero_unsignZeros]

theorem unsignZeros_of_lacks {f : Function} (h : f.Lacks Expr.isZero) : f.unsignZeros = f := by
  have hbody : Expr.unsignZerosAll f.body = f.body :=
    Expr.unsignZerosAll_eq_self.2 fun e he => Expr.unsignZeros_of_lacks (h e he)
  rw [unsignZeros, hbody]

end Function

namespace FunctionTable

/-- The functions, with every zero in their bodies without its sign. -/
def unsignZeros (t : FunctionTable) : FunctionTable where
  toList := t.toList.map Function.unsignZeros
  names_nodup := by
    rw [List.map_map]
    exact t.names_nodup

theorem names_unsignZeros (t : FunctionTable) : t.unsignZeros.names = t.names :=
  List.map_map

theorem get?_unsignZeros (t : FunctionTable) (name : String) : t.unsignZeros.get? name = (t.get? name).map Function.unsignZeros :=
  List.find?_map

end FunctionTable

namespace Module

/-- The module, with every zero in its functions without its sign. -/
def unsignZeros (m : Module) : Module :=
  { m with functions := m.functions.unsignZeros }

theorem toList_unsignZeros (m : Module) : m.unsignZeros.functions.toList = m.functions.toList.map Function.unsignZeros := rfl

/-- Equal modules whose functions stand in the same order are the same but for the signs of zeros. -/
theorem unsignZeros_eq_of_beq {m n : Module} (h : (m == n) = true) (hnames : m.functions.names = n.functions.names) :
    m.unsignZeros = n.unsignZeros := by
  obtain ⟨-, -, hview⟩ := beq_iff.1 h
  obtain ⟨hfunction, htable, hmemory, hsegments, hstart⟩ := View.mk.inj hview
  have hfunctions : m.functions.unsignZeros = n.functions.unsignZeros := by
    refine FunctionTable.eq_of_names_get? ?_ fun name => ?_
    · rw [FunctionTable.names_unsignZeros, FunctionTable.names_unsignZeros, hnames]
    · rw [FunctionTable.get?_unsignZeros, FunctionTable.get?_unsignZeros]
      exact congrFun hfunction name
  simp only [unsignZeros, hfunctions, htable, hmemory, hsegments, hstart]

theorem lacks_isZero_unsignZeros {m : Module} : m.unsignZeros.Lacks Expr.isZero ↔ m.Lacks Expr.isZero := by
  simp only [Lacks, toList_unsignZeros, List.forall_mem_map, Function.lacks_isZero_unsignZeros]

theorem unsignZeros_of_lacks {m : Module} (h : m.Lacks Expr.isZero) : m.unsignZeros = m := by
  have hfunctions : m.functions.unsignZeros = m.functions := by
    refine FunctionTable.eq_of_names_get? m.functions.names_unsignZeros fun name => ?_
    rw [FunctionTable.get?_unsignZeros]
    cases hname : m.functions.get? name with
    | none => rfl
    | some f => exact congrArg some (Function.unsignZeros_of_lacks (lacks_iff.1 h name f hname))
  rw [unsignZeros, hfunctions]

/-- Equal modules whose functions stand in the same order are the same if one of them has no zero. -/
theorem eq_of_beq {m n : Module} (h : (m == n) = true) (hnames : m.functions.names = n.functions.names)
    (hzero : m.Lacks Expr.isZero) : m = n := by
  have hsame := unsignZeros_eq_of_beq h hnames
  have hzero' : n.Lacks Expr.isZero := by
    rw [← lacks_isZero_unsignZeros, ← hsame, lacks_isZero_unsignZeros]
    exact hzero
  rw [← unsignZeros_of_lacks hzero, hsame, unsignZeros_of_lacks hzero']

end Module

/-! ## Sign bytes -/

/-- Two bytes are the same, or each of them is the last byte of a zero: a zero byte or a lone sign bit. -/
def SameButSign (a b : UInt8) : Prop :=
  a = b ∨ (a = 0 ∨ a = 0x80) ∧ (b = 0 ∨ b = 0x80)

instance : DecidableRel SameButSign := fun a b =>
  inferInstanceAs (Decidable (a = b ∨ (a = 0 ∨ a = 0x80) ∧ (b = 0 ∨ b = 0x80)))

instance : Std.Refl SameButSign := ⟨fun _ => .inl rfl⟩

/-- Two bytes that are the same as a third but for signs are the same but for signs. -/
theorem SameButSign.of_common {a b c : UInt8} (ha : SameButSign a c) (hb : SameButSign b c) : SameButSign a b := by
  unfold SameButSign at *
  rcases ha with rfl | ha
  · tauto
  · rcases hb with rfl | hb
    · exact .inr ha
    · exact .inr ⟨ha.1, hb.1⟩

/-- The bytes of a number of any width are the same but for a sign once the number has lost the sign of a zero, if they are so for the zero
that is a lone sign bit. -/
theorem forall₂_bytes_ite_zero {α : Type} (isZero : α → Bool) (bits : α → Nat) (bytes : α → List UInt8) (zero signed : α) {sign : Nat}
    (hbits : Function.Injective bits) (hlt : ∀ x, bits x < 2 * sign) (hmagnitude : ∀ x, isZero x = true → bits x % sign = 0)
    (hzero : bits zero = 0) (hsign : bits signed = sign) (hsigned : List.Forall₂ SameButSign (bytes signed) (bytes zero)) (x : α) :
    List.Forall₂ SameButSign (bytes x) (bytes (if isZero x then zero else x)) := by
  split
  · rename_i hx
    have hmod := hmagnitude x hx
    -- the bits below the sign are zero, so there is only the sign left to tell
    rcases Nat.lt_or_ge (bits x) sign with hsmall | hlarge
    · rw [Nat.mod_eq_of_lt hsmall, ← hzero] at hmod
      obtain rfl := hbits hmod
      exact List.forall₂_refl _
    · have hrest : bits x - sign < sign := by
        have := hlt x
        omega
      rw [Nat.mod_eq_sub_mod hlarge, Nat.mod_eq_of_lt hrest] at hmod
      have hbit : bits x = bits signed := by omega
      obtain rfl := hbits hbit
      exact hsigned
  · exact List.forall₂_refl _

theorem F32.forall₂_bytes_unsignZero (x : F32) :
    List.Forall₂ SameButSign (littleEndian32 x.bits) (littleEndian32 x.unsignZero.bits) :=
  forall₂_bytes_ite_zero isZero (fun x => x.bits.toNat) (fun x => littleEndian32 x.bits) ⟨0⟩ ⟨0x80000000⟩
    (fun _ _ h => congrArg mk (UInt32.toNat_inj.1 h)) (fun x => x.bits.toNat_lt) (fun _ => of_decide_eq_true) rfl rfl (by decide) x

theorem F64.forall₂_bytes_unsignZero (x : F64) :
    List.Forall₂ SameButSign (littleEndian64 x.bits) (littleEndian64 x.unsignZero.bits) :=
  forall₂_bytes_ite_zero isZero (fun x => x.bits.toNat) (fun x => littleEndian64 x.bits) ⟨0⟩ ⟨0x8000000000000000⟩
    (fun _ _ h => congrArg mk (UInt64.toNat_inj.1 h)) (fun x => x.bits.toNat_lt) (fun _ => of_decide_eq_true) rfl rfl (by decide) x

/-! ## Code without the signs of zeros -/

/-- The instruction, a zero without its sign. -/
def Instr.unsignZero : Instr → Instr
  | f32Const x => f32Const x.unsignZero
  | f64Const x => f64Const x.unsignZero
  | i => i

theorem Instr.forall₂_bytes_unsignZero (i : Instr) : List.Forall₂ SameButSign i.bytes i.unsignZero.bytes := by
  cases i with
  | f32Const x => exact .cons (.inl rfl) x.forall₂_bytes_unsignZero
  | f64Const x => exact .cons (.inl rfl) x.forall₂_bytes_unsignZero
  | _ => exact List.forall₂_refl _

namespace Symbolic

/-- The symbolic instruction, a zero without its sign. -/
def unsignZero : Symbolic → Symbolic
  | plain i => plain i.unsignZero
  | s => s

/-- The sign of a zero plays no part in looking up names and signatures. -/
theorem resolve_unsignZero (refs : References) (s : Symbolic) : s.unsignZero.resolve refs = Instr.unsignZero <$> s.resolve refs := by
  cases s with
  | plain i => rfl
  | call function =>
    show refs.callInstr function = Instr.unsignZero <$> refs.callInstr function
    unfold References.callInstr
    split
    · rfl
    · cases NameTable.number refs.functionNumbers function <;> rfl
  | callIndirect s =>
    show (refs.signatures.number s).map Instr.callIndirect = Instr.unsignZero <$> (refs.signatures.number s).map Instr.callIndirect
    cases refs.signatures.number s <;> rfl

end Symbolic

namespace Expr

/-- What holds of the expressions of a sequence holds of the sequence. -/
theorem flattenAll_unsignZerosAll_of_forall {es : List Expr}
    (h : ∀ e ∈ es, e.unsignZeros.flatten = e.flatten.map Symbolic.unsignZero) :
    flattenAll (unsignZerosAll es) = (flattenAll es).map Symbolic.unsignZero := by
  rw [flattenAll_eq_flatMap, flattenAll_eq_flatMap, unsignZerosAll_eq_map, List.flatMap_map, List.map_flatMap]
  exact List.flatMap_congr h

/-- Without the signs of zeros an expression has the same instructions, each without the sign of a zero. -/
theorem flatten_unsignZeros (e : Expr) : e.unsignZeros.flatten = e.flatten.map Symbolic.unsignZero := by
  induction e using childInduction with
  | step e ih =>
    cases e with
    | unreachable | nop | br | ret | i32Const | i64Const | f32Const | f64Const | getLocal => rfl
    | brIf _ v | retValue v | drop v | setLocal _ v | load _ _ v =>
      have hv := ih v (List.mem_singleton_self v)
      simp [unsignZeros, flatten, hv, Symbolic.unsignZero, Instr.unsignZero]
    | store _ _ l r | binary _ l r =>
      have hl := ih l (by simp [children])
      have hr := ih r (by simp [children])
      simp [unsignZeros, flatten, hl, hr, Symbolic.unsignZero, Instr.unsignZero]
    | block es | loop es | call _ es =>
      have hes : flattenAll (unsignZerosAll es) = _ := flattenAll_unsignZerosAll_of_forall ih
      simp [unsignZeros, flatten, hes, Symbolic.unsignZero, Instr.unsignZero]
    | cond c thenBody elseBody =>
      simp only [children, List.forall_mem_cons, List.forall_mem_append] at ih
      obtain ⟨hc, hthen, helse⟩ := ih
      have hempty : (unsignZerosAll elseBody).isEmpty = elseBody.isEmpty := by
        rw [unsignZerosAll_eq_map, List.isEmpty_map]
      cases hcase : elseBody.isEmpty <;>
        simp [unsignZeros, flatten, hc, flattenAll_unsignZerosAll_of_forall hthen, flattenAll_unsignZerosAll_of_forall helse, hempty,
          hcase, Symbolic.unsignZero, Instr.unsignZero]
    | callIndirect s selector args =>
      simp only [children, List.forall_mem_append, List.forall_mem_singleton] at ih
      obtain ⟨hargs, hselector⟩ := ih
      simp [unsignZeros, flatten, flattenAll_unsignZerosAll_of_forall hargs, hselector, Symbolic.unsignZero]

theorem indirectSignature?_unsignZeros (e : Expr) : e.unsignZeros.indirectSignature? = e.indirectSignature? := by
  cases e <;> rfl

theorem postorder_unsignZeros (e : Expr) : e.unsignZeros.postorder = e.postorder.map unsignZeros := by
  induction e using childInduction with
  | step e ih =>
    rw [postorder_eq, postorder_eq e, children_unsignZeros, List.flatMap_map, List.map_append, List.map_flatMap,
      List.flatMap_congr ih]
    rfl

theorem indirectSignatures_unsignZeros (e : Expr) : e.unsignZeros.indirectSignatures = e.indirectSignatures := by
  unfold indirectSignatures
  rw [postorder_unsignZeros, List.filterMap_map]
  exact List.filterMap_congr fun node _ => indirectSignature?_unsignZeros node

end Expr

/-! ## Numbers and sections without the signs of zeros -/

namespace Module

theorem imported_unsignZeros (m : Module) : m.unsignZeros.imported = m.imported.map fun p => (p.1.unsignZeros, p.2) := by
  unfold imported
  rw [toList_unsignZeros, List.filterMap_map, List.map_filterMap]
  refine List.filterMap_congr fun f _ => ?_
  rw [Option.map_map]
  rfl

theorem defined_unsignZeros (m : Module) : m.unsignZeros.defined = m.defined.map Function.unsignZeros :=
  List.filter_map

theorem exported_unsignZeros (m : Module) : m.unsignZeros.exported = m.exported :=
  List.filterMap_map

theorem signatureUses_unsignZeros (m : Module) : m.unsignZeros.signatureUses = m.signatureUses := by
  unfold signatureUses
  rw [toList_unsignZeros, List.flatMap_map]
  refine List.flatMap_congr fun f _ => ?_
  have hbody : f.unsignZeros.body.flatMap Expr.indirectSignatures = f.body.flatMap Expr.indirectSignatures := by
    rw [Function.body_unsignZeros, List.flatMap_map]
    exact List.flatMap_congr fun e _ => e.indirectSignatures_unsignZeros
  exact congrArg (f.signature :: ·) hbody

end Module

/-- The numbering, with every zero in the functions without its sign. -/
def Numbering.unsignZeros (n : Numbering) : Numbering where
  references := n.references
  imported := n.imported.map fun p => (p.1.unsignZeros, p.2)
  defined := n.defined.map Function.unsignZeros

/-- The sign of a zero plays no part in numbering functions and signatures. -/
theorem Module.plainNumbering_unsignZeros (m : Module) (r : Revision) :
    m.unsignZeros.plainNumbering r = Numbering.unsignZeros <$> m.plainNumbering r := by
  have hcatalog : m.unsignZeros.plainCatalog = m.plainCatalog := by
    unfold plainCatalog
    rw [signatureUses_unsignZeros]
  have htables : m.unsignZeros.plainTables r = m.plainTables r := by
    unfold plainTables
    rw [imported_unsignZeros, defined_unsignZeros, List.map_map, List.map_map]
    rfl
  have hnumbered : ∀ catalog tables,
      m.unsignZeros.numberedBy r catalog tables = (m.numberedBy r catalog tables).unsignZeros := by
    intro catalog tables
    unfold numberedBy
    rw [imported_unsignZeros, defined_unsignZeros]
    rfl
  unfold plainNumbering
  simp only [hcatalog, htables, hnumbered, map_eq_pure_bind, bind_assoc, pure_bind]

theorem WriteM.counted_map {α β : Type} (item : β → WriteM Unit) (f : α → β) (items : List α) :
    counted item (items.map f) = counted (fun a => item (f a)) items := by
  unfold counted
  rw [List.length_map]
  exact congrArg (fun rest => len items.length >>= fun _ => rest) List.forM_map

namespace Section

theorem imports_unsignZeros (n : Numbering) : imports n.unsignZeros = imports n := by
  unfold imports
  show (if (n.imported.map _).isEmpty then _ else some <$> ofWriter .imports (WriteM.counted _ (n.imported.map _))) = _
  rw [List.isEmpty_map, WriteM.counted_map]
  rfl

theorem functions_unsignZeros (n : Numbering) : functions n.unsignZeros = functions n :=
  congrArg (ofWriter .functions) (WriteM.counted_map _ _ _)

theorem names_unsignZeros (n : Numbering) : names n.unsignZeros = names n :=
  congrArg (ofWriter .names) (WriteM.counted_map _ _ _)

end Section

/-! ## Bytes without the signs of zeros -/

/-- Sections of one kind whose bytes are the same but for signs. -/
def Section.SameButSigns (s t : Section) : Prop :=
  s.kind = t.kind ∧ List.Forall₂ SameButSign s.payload t.payload

instance : Std.Refl Section.SameButSigns := ⟨fun s => ⟨rfl, List.forall₂_refl s.payload⟩⟩

theorem Expr.endsAlike_write (refs : References) (e : Expr) :
    EndsAlike Eq (List.Forall₂ SameButSign) (e.write refs).toBytes (e.unsignZeros.write refs).toBytes := by
  have hresolve : Symbolic.resolve refs ∘ Symbolic.unsignZero = fun s => Instr.unsignZero <$> s.resolve refs :=
    funext (Symbolic.resolve_unsignZero refs)
  rw [toBytes_write, toBytes_write, flatten_unsignZeros, List.mapM_map, hresolve, EncodeError.mapM_map_value, ← comp_map]
  refine (EndsAlike.refl (R := Eq) _).map ?_
  rintro code _ rfl
  show List.Forall₂ SameButSign (code.flatMap Instr.bytes) ((code.map Instr.unsignZero).flatMap Instr.bytes)
  rw [List.flatMap_map]
  induction code with
  | nil => exact .nil
  | cons i code ih => exact List.rel_append i.forall₂_bytes_unsignZero ih

namespace Numbering

variable (n : Numbering) (f : Function)

theorem endsAlike_bodyBytes : EndsAlike Eq (List.Forall₂ SameButSign) (n.bodyBytes f) (n.unsignZeros.bodyBytes f.unsignZeros) := by
  have hbody : List.Forall₂ (fun e e' => e' = e.unsignZeros) f.body f.unsignZeros.body := by
    rw [Function.body_unsignZeros, List.forall₂_map_right_iff]
    exact List.forall₂_refl _
  have hcode : EndsAlike Eq (List.Forall₂ (List.Forall₂ SameButSign)) (f.body.mapM fun e => (e.write n.references).toBytes)
      (f.unsignZeros.body.mapM fun e => (e.write n.references).toBytes) := by
    refine EndsAlike.mapM ?_ hbody
    rintro e _ rfl
    exact e.endsAlike_write n.references
  refine EndsAlike.same_bind f.writeVars.toBytes fun vars => ?_
  refine hcode.bind fun code code' h => .ok ?_
  exact List.rel_append (List.rel_append (List.forall₂_refl vars) (List.rel_flatten h)) (List.forall₂_refl _)

theorem endsAlike_bodyEntry : EndsAlike Eq (List.Forall₂ SameButSign) (n.bodyEntry f) (n.unsignZeros.bodyEntry f.unsignZeros) := by
  refine (n.endsAlike_bodyBytes f).bind fun body body' h => ?_
  rw [h.length_eq]
  refine EndsAlike.same_bind _ fun length => ?_
  exact .ok (List.rel_append (List.forall₂_refl length) h)

theorem endsAlike_codeSection : EndsAlike Eq Section.SameButSigns n.codeSection n.unsignZeros.codeSection := by
  have hdefined : List.Forall₂ (fun f f' => f' = f.unsignZeros) n.defined n.unsignZeros.defined := by
    rw [unsignZeros, List.forall₂_map_right_iff]
    exact List.forall₂_refl _
  have hentries : EndsAlike Eq (List.Forall₂ (List.Forall₂ SameButSign)) (n.defined.mapM n.bodyEntry)
      (n.unsignZeros.defined.mapM n.unsignZeros.bodyEntry) := by
    refine EndsAlike.mapM ?_ hdefined
    rintro f _ rfl
    exact n.endsAlike_bodyEntry f
  unfold codeSection
  rw [hdefined.length_eq]
  refine EndsAlike.same_bind _ fun count => ?_
  exact hentries.bind fun entries entries' h => .ok ⟨rfl, List.rel_append (List.forall₂_refl count) (List.rel_flatten h)⟩

end Numbering

theorem Section.endsAlike_frame (r : Revision) {s t : Section} (h : s.SameButSigns t) :
    EndsAlike Eq (List.Forall₂ SameButSign) (s.frame r).write.toBytes (t.frame r).write.toBytes := by
  obtain ⟨kind, payload⟩ := s
  obtain ⟨_, payload'⟩ := t
  obtain ⟨rfl, hpayload⟩ := h
  have hlength : payload.length = payload'.length := hpayload.length_eq
  have hheader : (frame r ⟨kind, payload⟩).writeHeader = (frame r ⟨kind, payload'⟩).writeHeader := by
    unfold frame Frame.of
    cases r with
    | v11 => simp only [Frame.writeHeader, hlength]
    | v12 =>
      by_cases hid : kind.id = customId <;> simp only [hid, if_true, if_false, Frame.writeHeader, hlength]
  rw [Frame.toBytes_write, Frame.toBytes_write, hheader, payload_frame, payload_frame]
  refine (EndsAlike.refl (R := Eq) _).map ?_
  rintro header _ rfl
  exact List.rel_append (List.forall₂_refl header) hpayload

namespace Module

variable (m : Module) (settings : Settings) (n : Numbering)

theorem endsAlike_plainSections : EndsAlike Eq (List.Forall₂ Section.SameButSigns) (m.plainSections settings n)
    (m.unsignZeros.plainSections settings n.unsignZeros) := by
  have hexports : Section.exports m.unsignZeros n.unsignZeros = Section.exports m n := by
    unfold Section.exports
    rw [exported_unsignZeros]
    rfl
  unfold plainSections Numbering.nameSection
  rw [Section.imports_unsignZeros, Section.functions_unsignZeros, Section.names_unsignZeros, hexports]
  refine EndsAlike.same_bind (Section.types n) fun types => ?_
  refine EndsAlike.same_bind _ fun imports => ?_
  refine EndsAlike.same_bind _ fun functions => ?_
  refine EndsAlike.same_bind (Section.table m n) fun table => ?_
  refine EndsAlike.same_bind (Section.memory m settings.revision) fun memory => ?_
  refine EndsAlike.same_bind _ fun exports => ?_
  refine EndsAlike.same_bind (Section.start m n) fun start => ?_
  refine EndsAlike.same_bind (Section.elements m n) fun elements => ?_
  refine n.endsAlike_codeSection.bind fun code code' hcode => ?_
  refine EndsAlike.same_bind (Section.data m settings.revision) fun data => ?_
  refine EndsAlike.same_bind _ fun names => .ok ?_
  have hrefl : Std.Refl (Option.Rel Section.SameButSigns) :=
    ⟨fun slot => by
      cases slot with
      | none => exact .none
      | some s => exact .some (Std.Refl.refl s)⟩
  exact List.rel_filterMap (fun _ _ hslot => hslot) (List.rel_append (R := Option.Rel Section.SameButSigns)
    (List.forall₂_refl [some types, imports, some functions, table, some memory, exports, start, elements])
    (.cons (.some hcode) (List.forall₂_refl [data, names])))

theorem endsAlike_bytes : EndsAlike Eq (List.Forall₂ SameButSign) (m.bytes settings n) (m.unsignZeros.bytes settings n.unsignZeros) := by
  refine (m.endsAlike_plainSections settings n).bind fun sections sections' hsections => ?_
  refine (EndsAlike.mapM (fun s t h => Section.endsAlike_frame settings.revision h) hsections).bind fun frames frames' hframes => ?_
  exact .ok (List.rel_append (List.forall₂_refl _) (List.rel_flatten hframes))

theorem render_eq_bind : m.render settings = m.plainNumbering settings.revision >>= m.bytes settings := by
  rw [render_eq, ← m.yields_resolve settings.revision []]
  cases (Numbering.resolve m settings.revision).run [] <;> rfl

/-- Without the signs of zeros a module is rendered as the same bytes but for signs, or fails with the same error. -/
theorem endsAlike_render : EndsAlike Eq (List.Forall₂ SameButSign) (m.render settings) (m.unsignZeros.render settings) := by
  rw [render_eq_bind, render_eq_bind, plainNumbering_unsignZeros, map_eq_pure_bind, bind_assoc]
  exact EndsAlike.same_bind _ fun n => m.endsAlike_bytes settings n

end Module

theorem EndsAlike.of_common {x y z : Except EncodeError (List UInt8)} (hx : EndsAlike Eq (List.Forall₂ SameButSign) x z)
    (hy : EndsAlike Eq (List.Forall₂ SameButSign) y z) : EndsAlike Eq (List.Forall₂ SameButSign) x y := by
  cases hx with
  | ok ha =>
    cases hy with
    | ok hb => exact .ok (forall₂_of_common ha.flip hb.flip fun _ _ _ _ => SameButSign.of_common)
  | error he =>
    cases hy with
    | error he' => exact .error (he.trans he'.symm)

/-- Equal modules whose functions stand in the same order are rendered alike under all settings: with the same error, or as bytes that are
the same but for signs. If one of the modules has no zero in the body of a function, at whatever depth, the bytes are the same as well, and
so is what any other encoder makes of the modules, from every state. -/
theorem render_of_beq {m n : Module} (heq : (m == n) = true) (hnames : m.functions.names = n.functions.names) :
    (∀ settings, EndsAlike Eq (List.Forall₂ SameButSign) (m.render settings) (n.render settings)) ∧
      (m.Lacks Expr.isZero → ∀ settings, m.render settings = n.render settings ∧
        ∀ (σ : Type) (encoder : ExprEncoder σ) (s : RenderState σ),
          (encoder.render settings m).run s = (encoder.render settings n).run s) := by
  constructor
  · intro settings
    have hn := n.endsAlike_render settings
    rw [← Module.unsignZeros_eq_of_beq heq hnames] at hn
    exact (m.endsAlike_render settings).of_common hn
  · intro hzero settings
    rw [Module.eq_of_beq heq hnames hzero]
    exact ⟨rfl, fun _ _ _ => rfl⟩

/-- Two functions, the second one with a constant deep in its body. -/
def Module.dropping (x : F64) : Module :=
  Module.empty.insertFunctions
    [.new "first", { Function.new "second" with params := #[.i32], body := [.cond (.getLocal 0) [.nop, .drop (.f64Const x)] []] }]

/-- The two zeros are rendered apart, and so are the same functions in another order; a function that replaces another one is not. -/
theorem render_of_beq_constants :
    let positive := Module.dropping ⟨0⟩
    let negative := Module.dropping ⟨0x8000000000000000⟩
    let one := Module.dropping ⟨0x3ff0000000000000⟩
    let replacing := (Module.empty.insertFunctions [.new "first", .new "second"]).insertFunctions one.functions.toList
    EndsAlike Eq (List.Forall₂ SameButSign) (positive.render .default) (negative.render .default) ∧
      (positive.render .default).toOption ≠ (negative.render .default).toOption ∧
      (∀ settings, replacing.render settings = one.render settings) ∧
      (one.reversed == one) = true ∧ (one.reversed.render .default).toOption ≠ (one.render .default).toOption := by
  intro positive negative one replacing
  have hzeros := render_of_beq (m := positive) (n := negative) (by decide +kernel) (by decide +kernel)
  have hone := render_of_beq (m := replacing) (n := one) (by decide +kernel) (by decide +kernel)
  refine ⟨hzeros.1 .default, ?_, fun settings => (hone.2 ?_ settings).1, ?_, ?_⟩ <;> decide +kernel

end WasmBinary
