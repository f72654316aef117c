import WasmBinary.Proofs.Rendering

/-!
# Faults of a module

What can be wrong with a module, apart from its size: a text that is not ASCII, or a name that stands for no function with a number.
`Module.firstFault` looks for such faults in the order in which rendering meets them. `fault?` and `WriteM.fault` are the error that
a computation or a writer ends with; that of a sequence is the error of the first part that fails.
-/

namespace WasmBinary

variable {α β : Type}

/-- The error that a computation ends with, if it fails. -/
def fault? : Except EncodeError α → Option EncodeError
  | .ok _ => none
  | .error e => some e

@[simp] theorem fault?_ok (a : α) : fault? (.ok a) = none := rfl

theorem fault?_eq_some {x : Except EncodeError α} {e : EncodeError} : fault? x = some e ↔ x = .error e := by
  cases x with
  | ok a => exact ⟨fun h => (nomatch h), fun h => (nomatch h)⟩
  | error e' => exact ⟨fun h => congrArg _ (Option.some.inj h), fun h => congrArg _ (Except.error.inj h)⟩

theorem fault?_eq_none {x : Except EncodeError α} : fault? x = none ↔ ∃ a, x = .ok a := by
  cases x with
  | ok a => exact ⟨fun _ => ⟨a, rfl⟩, fun _ => rfl⟩
  | error e => exact ⟨fun h => (nomatch h), fun ⟨_, h⟩ => (nomatch h)⟩

/-- A sequence fails as its first part does, or else as its second part does. -/
theorem fault?_bind {x : Except EncodeError α} {f : α → Except EncodeError β} {i j : Option EncodeError} (hx : fault? x = i)
    (hf : ∀ a, x = .ok a → fault? (f a) = j) : fault? (x >>= f) = i.or j := by
  subst hx
  cases x with
  | ok a => exact hf a rfl
  | error e => rfl

@[simp] theorem fault?_map (x : Except EncodeError α) (f : α → β) : fault? (f <$> x) = fault? x := by
  cases x <;> rfl

/-- A computation for each item fails as the first that does. -/
theorem fault?_mapM (f : α → Except EncodeError β) (items : List α) :
    fault? (items.mapM f) = items.findSome? fun a => fault? (f a) := by
  induction items with
  | nil => rfl
  | cons a items ih =>
    have hrest : ∀ b, f a = .ok b → fault? (do return b :: (← items.mapM f)) = items.findSome? fun a => fault? (f a) := by
      intro b _
      rw [← ih]
      cases items.mapM f <;> rfl
    rw [List.mapM_cons, fault?_bind rfl hrest, List.findSome?_cons]
    cases fault? (f a) <;> rfl

/-- The fault of a text, which has to be ASCII. -/
def textFault (text : String) : Option EncodeError :=
  if isAscii text then none else some (.nonAscii text)

/-! ## Faults of writers -/

namespace WriteM

/-- The error that a writer ends with, if it fails. -/
def fault (w : WriteM Unit) : Option EncodeError := fault? w.toBytes

@[simp] theorem fault_raw (bytes : List UInt8) : (raw bytes).fault = none := by
  rw [fault, toBytes_raw, fault?_ok]

@[simp] theorem fault_byte (v : UInt8) : (byte v).fault = none := by
  rw [fault, toBytes_byte, fault?_ok]

@[simp] theorem fault_leb (v : UInt32) : (leb v).fault = none := by
  rw [fault, toBytes_leb, fault?_ok]

@[simp] theorem fault_type (t : ValueType) : (type t).fault = none := by
  rw [fault, toBytes_type, fault?_ok]

@[simp] theorem fault_chunked (size : Nat) (bytes : List UInt8) : (chunked size bytes).fault = none := by
  rw [fault, toBytes_chunked, fault?_ok]

theorem fault_len {n : Nat} (h : n < 0x100000000) : (len n).fault = none := by
  rw [fault, toBytes_len_eq_ok.2 ⟨h, rfl⟩, fault?_ok]

/-- A text fails only if it is not ASCII, as long as its length fits. -/
theorem fault_ascii {s : String} (h : s.length < 0x100000000) : (ascii s).fault = textFault s := by
  unfold textFault
  split
  · rename_i hs
    rw [fault, toBytes_ascii_eq_ok.2 ⟨hs, h, rfl⟩, fault?_ok]
  · rename_i hs
    rw [fault, ascii, if_neg hs]
    rfl

/-- Two writers in sequence fail as the first does, or else as the second does. -/
@[simp] theorem fault_seq {x y : WriteM Unit} [y.Appends] : (x >>= fun _ => y).fault = x.fault.or y.fault := by
  unfold fault
  rw [toBytes_seq]
  refine fault?_bind rfl fun a _ => ?_
  cases y.toBytes <;> rfl

/-- A writer that needs a value fails as the computation of the value does, or else as the writer does. -/
theorem fault_lift_bind {x : Except EncodeError α} {w : α → WriteM Unit} {i j : Option EncodeError} (hx : fault? x = i)
    (hw : ∀ a, x = .ok a → (w a).fault = j) : (liftM x >>= w : WriteM Unit).fault = i.or j := by
  unfold fault
  rw [toBytes_lift_bind]
  exact fault?_bind hx hw

/-- A list fails as its length does, or else as the first item that does. -/
theorem fault_counted_eq {item : α → WriteM Unit} [∀ a, (item a).Appends] (items : List α) :
    (counted item items).fault = (len items.length).fault.or (items.findSome? fun a => (item a).fault) := by
  unfold counted
  rw [fault_seq]
  unfold fault
  rw [toBytes_forM, fault?_map, fault?_mapM]

/-- A list fails as the first item that does, as long as its length fits. -/
theorem fault_counted {item : α → WriteM Unit} [∀ a, (item a).Appends] {items : List α} (h : items.length < 0x100000000) :
    (counted item items).fault = items.findSome? fun a => (item a).fault := by
  rw [fault_counted_eq, fault_len h, Option.none_or]

end WriteM

/-! ## The faults of a module, in the order in which rendering meets them -/

/-- Whether a name stands for a function that has a number: any function of the module where imported functions are numbered too, else
one that the module defines. -/
def Module.resolves (m : Module) (r : Revision) (name : String) : Bool :=
  match m.function? name with
  | some f => r.combined || !f.isImport
  | none => false

/-- The fault of a name that has to stand for a function with a number. -/
def Module.nameFault (m : Module) (r : Revision) (name : String) : Option EncodeError :=
  if m.resolves r name then none else some (.unresolvedFunction name)

namespace Module

/-- The first text at the origin of an imported function that is not ASCII. -/
def importFault (m : Module) : Option EncodeError :=
  m.imported.findSome? fun p => (textFault (p.2.moduleName.getD "")).or (textFault p.2.name)

/-- The first name in the table that stands for no function with a number. -/
def tableFault (m : Module) (r : Revision) : Option EncodeError :=
  m.table.findSome? (m.nameFault r)

/-- The first function that cannot be exported: an imported one where imported functions are numbered apart, or one with an export name
that is not ASCII. -/
def exportFault (m : Module) (r : Revision) : Option EncodeError :=
  m.functions.toList.findSome? fun f => f.exportName.bind fun exportName =>
    if r = .v11 ∧ f.isImport = true then some (.unresolvedFunction f.name) else textFault exportName

/-- The name of the function to start with, if it stands for no function with a number. -/
def startFault (m : Module) (r : Revision) : Option EncodeError :=
  m.start.bind (m.nameFault r)

/-- The fault of a node that calls a function by a name that is not in the module. -/
def nodeFault (m : Module) : Expr → Option EncodeError
  | .call name _ => if (m.function? name).isSome then none else some (.unresolvedFunction name)
  | _ => none

/-- The first call of a name that is not in the module, in the order in which the calls of a body happen. -/
def callFault (m : Module) : Option EncodeError :=
  m.defined.findSome? fun f => (f.body.flatMap Expr.postorder).findSome? m.nodeFault

/-- The first name of a defined function that is not ASCII. -/
def nameSectionFault (m : Module) : Option EncodeError :=
  m.defined.findSome? fun f => textFault f.name

/-- The first fault of a module, in the order in which rendering meets them. -/
def firstFault (m : Module) (settings : Settings) : Option EncodeError :=
  m.importFault.or <|
  (if settings.revision = .v11 then m.tableFault .v11 else none).or <|
  (m.exportFault settings.revision).or <|
  (m.startFault settings.revision).or <|
  (if settings.revision = .v12 then m.tableFault .v12 else none).or <|
  m.callFault.or <|
  if settings.nameSection then m.nameSectionFault else none

end Module

/-! ## The kinds of faults -/

/-- The error says that a text is not ASCII or that a name stands for no function, and nothing else. -/
def EncodeError.IsFault : EncodeError → Bool
  | nonAscii _ | unresolvedFunction _ => true
  | _ => false

/-- Whatever the fault is, it is of the two kinds that a module can have. -/
def OnlyFaults (o : Option EncodeError) : Prop :=
  ∀ e, o = some e → e.IsFault = true

theorem onlyFaults_none : OnlyFaults none := fun _ h => (nomatch h)

theorem onlyFaults_some {e : EncodeError} (h : e.IsFault = true) : OnlyFaults (some e) := by
  intro e' he
  obtain rfl := Option.some.inj he
  exact h

theorem OnlyFaults.or {o o' : Option EncodeError} (h : OnlyFaults o) (h' : OnlyFaults o') : OnlyFaults (o.or o') := by
  intro e he
  rcases Option.or_eq_some_iff.1 he with ho | ⟨-, ho⟩
  · exact h e ho
  · exact h' e ho

theorem OnlyFaults.ite {o o' : Option EncodeError} (p : Prop) [Decidable p] (h : OnlyFaults o) (h' : OnlyFaults o') :
    OnlyFaults (if p then o else o') := by
  split
  · exact h
  · exact h'

theorem OnlyFaults.bind {o : Option α} {f : α → Option EncodeError} (h : ∀ a, OnlyFaults (f a)) : OnlyFaults (o.bind f) := by
  cases o with
  | none => exact onlyFaults_none
  | some a => exact h a

theorem OnlyFaults.findSome? {f : α → Option EncodeError} (h : ∀ a, OnlyFaults (f a)) (items : List α) :
    OnlyFaults (items.findSome? f) := by
  intro e he
  obtain ⟨a, -, ha⟩ := List.exists_of_findSome?_eq_some he
  exact h a e ha

theorem onlyFaults_textFault (text : String) : OnlyFaults (textFault text) :=
  .ite _ onlyFaults_none (onlyFaults_some rfl)

namespace Module

theorem onlyFaults_nameFault (m : Module) (r : Revision) (name : String) : OnlyFaults (m.nameFault r name) :=
  .ite _ onlyFaults_none (onlyFaults_some rfl)

theorem onlyFaults_nodeFault (m : Module) (e : Expr) : OnlyFaults (m.nodeFault e) := by
  cases e with
  | call name args => exact .ite _ onlyFaults_none (onlyFaults_some rfl)
  | _ => exact onlyFaults_none

/-- A module has no faults but texts that are not ASCII and names that stand for no function. -/
theorem onlyFaults_firstFault (m : Module) (settings : Settings) : OnlyFaults (m.firstFault settings) := by
  have htable : ∀ r, OnlyFaults (m.tableFault r) := fun r => .findSome? (m.onlyFaults_nameFault r) _
  have himports : OnlyFaults m.importFault :=
    .findSome? (fun p => (onlyFaults_textFault _).or (onlyFaults_textFault _)) _
  have hexports : OnlyFaults (m.exportFault settings.revision) := by
    refine .findSome? (fun f => .bind fun exportName => ?_) _
    exact .ite _ (onlyFaults_some rfl) (onlyFaults_textFault _)
  have hcalls : OnlyFaults m.callFault := .findSome? (fun f => .findSome? m.onlyFaults_nodeFault _) _
  have hnames : OnlyFaults m.nameSectionFault := .findSome? (fun f => onlyFaults_textFault _) _
  exact himports.or <| (OnlyFaults.ite _ (htable _) onlyFaults_none).or <| hexports.or <|
    (OnlyFaults.bind (m.onlyFaults_nameFault _)).or <| (OnlyFaults.ite _ (htable _) onlyFaults_none).or <| hcalls.or <|
    .ite _ hnames onlyFaults_none

end Module

end WasmBinary
