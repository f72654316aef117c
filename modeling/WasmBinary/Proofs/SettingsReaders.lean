import WasmBinary.Proofs.Writing
import WasmBinary.Settings

/-!
# Two readers of settings

Settings are read from a JSON text in two ways: as a configuration file, where a field may be `null` (`Settings.parse`), and as what was
written for settings, where a field has to be right (`Json.read?`). Both look for the same fields (`Json.fields?`, `Json.leadingFields?`),
and a field that is found is the one member of its name (`Json.mem_of_objectFields?`). Where all fields are found, a field that is not
`null` comes to the same for both (`Json.withDefault?_eq`, `Json.withDefault?_revision`), so they make the same of the whole
(`Settings.ofJson?_eq_given?`); a field that is `null` is refused by one of them (`Settings.ofJson?_of_null`). There is one more way in
which they differ, an array that leaves out the last fields (`Settings.readers_cases`).
-/

namespace WasmBinary

namespace Json

/-! ## Fields of a record -/

/-- A field that is found has the value of the one member of its name. -/
theorem field?_eq_some {members : List (String × Json)} {name : String} {field : Option Json} (h : field? members name = some field)
    (v : Json) : field = some v ↔ (name, v) ∈ members := by
  have hmem : (name, v) ∈ members ↔ (name, v) ∈ members.filter fun m => m.1 = name := by simp
  rw [hmem]
  unfold field? at h
  split at h
  · rename_i hnone
    cases h
    simp [hnone]
  · rename_i m hone
    have hname : m.1 = name := by
      have hm : m ∈ members.filter fun m => m.1 = name := by simp [hone]
      simpa using (List.mem_filter.1 hm).2
    cases h
    rw [hone, List.mem_singleton, ← hname]
    constructor
    · intro h
      cases h
      rfl
    · intro h
      rw [← h]
  · nomatch h

/-- Where every key denotes a text, the members are known by the texts. -/
theorem members_eq_map {members : List (Option String × Json)} {named : List (String × Json)}
    (h : members.mapM (fun m => m.1.map (·, m.2)) = some named) : members = named.map fun m => (some m.1, m.2) := by
  rw [← List.forall₂_eq_eq_eq, List.forall₂_map_right_iff]
  refine (mapM_eq_some.1 h).imp fun m n hm => ?_
  obtain ⟨name, hname, rfl⟩ := Option.map_eq_some_iff.1 hm
  rw [← hname]

/-- A value is that of a field exactly if it is that of a member of the field's name. -/
theorem mem_of_objectFields? {names : List String} {members : List (Option String × Json)} {fields : List (Option Json)}
    (h : objectFields? names members = some fields) (v : Json) : some v ∈ fields ↔ ∃ name ∈ names, (some name, v) ∈ members := by
  unfold objectFields? at h
  obtain ⟨named, hnamed, hfields⟩ := Option.bind_eq_some_iff.1 h
  have hmembers : ∀ name, (some name, v) ∈ members ↔ (name, v) ∈ named := by
    intro name
    rw [members_eq_map hnamed]
    simp
  simp only [hmembers]
  have hfound := mapM_eq_some.1 hfields
  clear h hfields
  induction hfound with
  | nil => simp
  | cons hfield _ ih =>
    rw [List.mem_cons, List.exists_mem_cons_iff, eq_comm, field?_eq_some hfield]
    exact or_congr_right ih

/-- A record that gives all its fields gives them also where the last ones may be left out. -/
theorem leadingFields?_of_fields? {names : List String} {j : Json} {fields : List (Option Json)} (h : j.fields? names = some fields) :
    j.leadingFields? names = some fields := by
  cases j with
  | obj members => exact h
  | arr items =>
    by_cases hlength : items.length = names.length
    · simp only [fields?, hlength, if_true] at h
      simp [leadingFields?, hlength, ← h]
    · simp [fields?, hlength] at h
  | _ => nomatch h

theorem length_of_fields? {names : List String} {j : Json} {fields : List (Option Json)} (h : j.fields? names = some fields) :
    fields.length = names.length := by
  cases j with
  | obj members =>
    obtain ⟨named, -, hfields⟩ := Option.bind_eq_some_iff.1 h
    exact (mapM_eq_some.1 hfields).length_eq.symm
  | arr items =>
    by_cases hlength : items.length = names.length
    · simp only [fields?, hlength, if_true, Option.some.injEq] at h
      rw [← h, List.length_map, hlength]
    · simp [fields?, hlength] at h
  | _ => nomatch h

/-- Fields are missed only where an array leaves out the last of them. -/
theorem exists_arr_of_leadingFields? {names : List String} {j : Json} {fields : List (Option Json)}
    (h : j.leadingFields? names = some fields) (hnone : j.fields? names = none) :
    ∃ items, j = .arr items ∧ items.length < names.length := by
  cases j with
  | obj members =>
    rw [show leadingFields? names (obj members) = fields? names (obj members) from rfl, hnone] at h
    nomatch h
  | arr items =>
    refine ⟨items, rfl, ?_⟩
    by_cases hle : items.length ≤ names.length
    · have hne : items.length ≠ names.length := by
        intro heq
        simp [fields?, heq] at hnone
      omega
    · simp [leadingFields?, hle] at h
  | _ => nomatch h

/-! ## Values of a field -/

section

variable {α : Type} [JsonData α]

/-- Of what is there, only `null` is no value where a value may be missing. -/
theorem optional?_some {j : Json} (h : j ≠ .null) : (optional? (some j) : Option (Option α)) = (ofJson? j).map some := by
  cases j with
  | null => exact absurd rfl h
  | _ => rfl

/-- A field that is not `null` has the same value in both ways of leaving it open. -/
theorem withDefault?_eq {field : Option Json} (h : field ≠ some .null) (default : α) :
    withDefault? default field = (optional? field).map (·.getD default) := by
  cases field with
  | none => rfl
  | some j =>
    rw [optional?_some fun hj => h (congrArg some hj), Option.map_map]
    exact Option.map_id'.symm

end

/-- A revision that is not `null` is the one of the number that is given. -/
theorem withDefault?_revision {field : Option Json} (h : field ≠ some .null) (default : Revision) :
    withDefault? default field = (optional? field).bind fun tag => tag.elim (some default) Revision.ofTag? := by
  cases field with
  | none => rfl
  | some j =>
    rw [optional?_some fun hj => h (congrArg some hj), Option.bind_map]
    rfl

end Json

namespace Settings

/-! ## What the readers make of the fields -/

/-- The settings that a number and a choice stand for, what is left open being as in `default`. -/
def complete? (given : Option UInt32 × Option Bool) : Option Settings := do
  let revision ← given.1.elim (some default.revision) Revision.ofTag?
  return ⟨revision, given.2.getD default.nameSection⟩

theorem toOption_parse (text : String) :
    (parse text).toOption = (Json.parse? text).bind fun j => (given? j).bind complete? := by
  rw [← Option.bind_assoc]
  unfold parse
  cases (Json.parse? text).bind given? with
  | none => rfl
  | some given =>
    obtain ⟨version, nameSection⟩ := given
    cases version with
    | none => rfl
    | some tag =>
      simp only [Option.bind_some, complete?, Option.elim_some, Revision.ofTag]
      cases Revision.ofTag? tag <;> rfl

theorem parse_eq_ok {text : String} {a : Settings} :
    parse text = .ok a ↔ ((Json.parse? text).bind fun j => (given? j).bind complete?) = some a := by
  rw [← toOption_parse]
  cases parse text <;> simp [Except.toOption]

variable {j : Json}

section

variable {version nameSection : Option Json} (h : j.fields? fieldNames = some [version, nameSection])
include h

theorem given?_of_fields? : given? j = do return (← Json.optional? version, ← Json.optional? nameSection) := by
  unfold given?
  rw [h]
  rfl

theorem ofJson?_of_fields? : ofJson? j = do
    return (⟨← Json.withDefault? default.revision version, ← Json.withDefault? default.nameSection nameSection⟩ : Settings) := by
  show (j.leadingFields? fieldNames >>= _) = _
  rw [Json.leadingFields?_of_fields? h]
  rfl

end

variable {fields : List (Option Json)}

/-- Where all fields are found and none is `null`, both readers make the same of them. -/
theorem ofJson?_eq_given? (h : j.fields? fieldNames = some fields) (hnull : some .null ∉ fields) :
    ofJson? j = (given? j).bind complete? := by
  obtain ⟨version, nameSection, rfl⟩ := List.length_eq_two.1 (Json.length_of_fields? h)
  have hversion : version ≠ some .null := fun hv => hnull (by simp [hv])
  have hname : nameSection ≠ some .null := fun hn => hnull (by simp [hn])
  rw [ofJson?_of_fields? h, given?_of_fields? h, Json.withDefault?_revision hversion, Json.withDefault?_eq hname]
  cases (Json.optional? version : Option (Option UInt32)) with
  | none => rfl
  | some tag =>
    -- an unknown number and a choice that is none are refused in another order
    cases (Json.optional? nameSection : Option (Option Bool)) with
    | none => exact Option.bind_fun_none _
    | some choice => rfl

/-- A field that is `null` is refused by the reader that wants fields to be right. -/
theorem ofJson?_of_null (h : j.fields? fieldNames = some fields) (hnull : some .null ∈ fields) :
    (ofJson? j : Option Settings) = none := by
  obtain ⟨version, nameSection, rfl⟩ := List.length_eq_two.1 (Json.length_of_fields? h)
  rw [ofJson?_of_fields? h]
  rcases List.mem_pair.1 hnull with rfl | rfl
  · rfl
  · exact Option.bind_fun_none _

/-- Where not all fields are found, at most an array that leaves out the last ones is read, and only by one reader. -/
theorem given?_of_fields?_eq_none (h : j.fields? fieldNames = none) :
    given? j = none ∧ ((ofJson? j : Option Settings) = none ∨ ∃ items, j = .arr items ∧ items.length < fieldNames.length) := by
  constructor
  · unfold given?
    rw [h]
    rfl
  · cases hleading : j.leadingFields? fieldNames with
    | none =>
      left
      show (j.leadingFields? fieldNames >>= _) = _
      rw [hleading]
      rfl
    | some fields => exact .inr (Json.exists_arr_of_leadingFields? hleading h)

/-! ## Where the readers agree -/

variable {a b : Settings}

/-- An object is read alike unless a field is `null`. -/
theorem ofJson?_obj_iff {members : List (Option String × Json)} :
    ofJson? (.obj members) = some a ↔
      (given? (.obj members)).bind complete? = some a ∧ ∀ name ∈ fieldNames, (some name, Json.null) ∉ members := by
  cases hfields : Json.fields? fieldNames (.obj members) with
  | none =>
    obtain ⟨hgiven, hread | ⟨items, hitems, -⟩⟩ := given?_of_fields?_eq_none hfields
    · simp [hgiven, hread]
    · nomatch hitems
  | some fields =>
    have hmem := Json.mem_of_objectFields? hfields .null
    by_cases hnull : some .null ∈ fields
    · obtain ⟨name, hname, hmember⟩ := hmem.1 hnull
      rw [ofJson?_of_null hfields hnull]
      exact iff_of_false nofun fun h => h.2 name hname hmember
    · rw [ofJson?_eq_given? hfields hnull]
      exact (and_iff_left fun name hname hmember => hnull (hmem.2 ⟨name, hname, hmember⟩)).symm

/-- The readers make the same of a value, or a field in it is `null`, which one of them refuses, or it is an array that leaves out the last
fields, which the other refuses. -/
theorem readers_cases (j : Json) :
    ofJson? j = (given? j).bind complete? ∨
      (∃ fields, j.fields? fieldNames = some fields ∧ some .null ∈ fields ∧ (ofJson? j : Option Settings) = none) ∨
      ∃ items, j = .arr items ∧ items.length < fieldNames.length ∧ given? j = none := by
  cases hfields : j.fields? fieldNames with
  | none =>
    obtain ⟨hgiven, hread | ⟨items, rfl, hlength⟩⟩ := given?_of_fields?_eq_none hfields
    · left
      rw [hread, hgiven]
      rfl
    · exact .inr (.inr ⟨items, rfl, hlength, hgiven⟩)
  | some fields =>
    by_cases hnull : some .null ∈ fields
    · exact .inr (.inl ⟨fields, rfl, hnull, ofJson?_of_null hfields hnull⟩)
    · exact .inl (ofJson?_eq_given? hfields hnull)

theorem eq_of_accepted (ha : (given? j).bind complete? = some a) (hb : ofJson? j = some b) : a = b := by
  rcases readers_cases j with h | ⟨_, -, -, h⟩ | ⟨_, -, -, h⟩
  · rw [h, ha] at hb
    exact Option.some.inj hb
  · rw [h] at hb
    nomatch hb
  · rw [h] at ha
    nomatch ha

/-- What only the reader of configuration files accepts has a field that is `null`. -/
theorem exists_null_of_refused (ha : (given? j).bind complete? = some a) (hb : (ofJson? j : Option Settings) = none) :
    ∃ fields, j.fields? fieldNames = some fields ∧ some .null ∈ fields := by
  rcases readers_cases j with h | ⟨fields, hfields, hnull, -⟩ | ⟨_, -, -, h⟩
  · rw [h, ha] at hb
    nomatch hb
  · exact ⟨fields, hfields, hnull⟩
  · rw [h] at ha
    nomatch ha

/-- What only the other reader accepts is an array that leaves out the last fields. -/
theorem exists_arr_of_refused (ha : (given? j).bind complete? = none) (hb : ofJson? j = some b) :
    ∃ items, j = .arr items ∧ items.length < fieldNames.length := by
  rcases readers_cases j with h | ⟨_, -, -, h⟩ | ⟨items, hitems, hlength, -⟩
  · rw [h, ha] at hb
    nomatch hb
  · rw [h] at hb
    nomatch hb
  · exact ⟨items, hitems, hlength⟩

end Settings

open Settings

/-- The two readers of settings agree on every text that both accept. An object is accepted by the one that wants fields to be right exactly
if the other accepts it and no field of settings is `null` in it. All that the readers differ in is that one of them takes `null` for a
field that is left open, and the other takes an array that leaves out the last fields. -/
theorem settings_readers_agree (text : String) :
    (∀ a b, parse text = .ok a → Json.read? text = some b → a = b) ∧
      (∀ members, Json.parse? text = some (.obj members) → ∀ a : Settings,
        Json.read? text = some a ↔ parse text = .ok a ∧ ∀ name ∈ fieldNames, (some name, Json.null) ∉ members) ∧
      (∀ a, parse text = .ok a → (Json.read? text : Option Settings) = none →
        ∃ j fields, Json.parse? text = some j ∧ j.fields? fieldNames = some fields ∧ some Json.null ∈ fields) ∧
      ∀ (a : Settings) (e : EncodeError), Json.read? text = some a → parse text = .error e →
        ∃ items, Json.parse? text = some (.arr items) ∧ items.length < fieldNames.length := by
  have hread : (Json.read? text : Option Settings) = (Json.parse? text).bind ofJson? := rfl
  simp only [parse_eq_ok, hread]
  cases htext : Json.parse? text with
  | none => simp
  | some j =>
    simp only [Option.bind_some, Option.some.injEq]
    refine ⟨fun a b => eq_of_accepted, ?_, ?_, ?_⟩
    · rintro members rfl a
      exact ofJson?_obj_iff
    · intro a ha hb
      obtain ⟨fields, hfields⟩ := exists_null_of_refused ha hb
      exact ⟨j, fields, rfl, hfields⟩
    · intro b e hb he
      have hrefused := toOption_parse text
      rw [he, htext] at hrefused
      exact exists_arr_of_refused hrefused.symm hb

/-- Whether the value is an object. -/
def Json.isObject : Json → Bool
  | obj _ => true
  | _ => false

theorem Json.exists_members {text : String} (h : (parse? text).any isObject = true) : ∃ members, parse? text = some (.obj members) := by
  obtain ⟨j, hj, hobject⟩ := (Option.any_eq_true _ _).1 h
  cases j with
  | obj members => exact ⟨members, hj⟩
  | _ => nomatch hobject

/-- An object with more members than the fields of settings is read alike. A field that is `null` is refused by one reader only, and so is an
array of one field by the other. -/
theorem settings_readers_agree_texts :
    let whole := "\x7b\"debug\":[null],\"name_section\":false,\"version\":11\x7d"
    let leftOpen := "\x7b\"version\":null\x7d"
    let short := "[11]"
    (Json.read? whole = some (⟨.v11, false⟩ : Settings) ∧ parse whole = .ok ⟨.v11, false⟩) ∧
      ((Json.read? leftOpen : Option Settings) = none ∧ parse leftOpen = .ok Settings.default ∧
        ∃ j fields, Json.parse? leftOpen = some j ∧ j.fields? fieldNames = some fields ∧ some Json.null ∈ fields) ∧
      Json.read? short = some (⟨.v11, true⟩ : Settings) ∧ (parse short).isOk = false ∧
        ∃ items, Json.parse? short = some (.arr items) ∧ items.length < 2 := by
  intro whole leftOpen short
  have hwhole : Json.read? whole = some (⟨.v11, false⟩ : Settings) := by decide +kernel
  have hopen : (Json.read? leftOpen : Option Settings) = none := by decide +kernel
  have hshort : Json.read? short = some (⟨.v11, true⟩ : Settings) := by decide +kernel
  have hparsed : parse leftOpen = .ok Settings.default := parse_eq_ok.2 (by decide +kernel)
  have hrefused : (parse short).isOk = false := by decide +kernel
  refine ⟨⟨hwhole, ?_⟩, ⟨hopen, hparsed, ?_⟩, hshort, hrefused, ?_⟩
  · have hobject : (Json.parse? whole).any Json.isObject = true := by decide +kernel
    obtain ⟨members, hmembers⟩ := Json.exists_members hobject
    exact (((settings_readers_agree whole).2.1 members hmembers _).1 hwhole).1
  · exact (settings_readers_agree leftOpen).2.2.1 _ hparsed hopen
  · cases hparse : parse short with
    | ok a =>
      rw [hparse] at hrefused
      nomatch hrefused
    | error e => exact (settings_readers_agree short).2.2.2 _ e hshort hparse

end WasmBinary
