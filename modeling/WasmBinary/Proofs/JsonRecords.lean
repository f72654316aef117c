import WasmBinary.Json.Types
import WasmBinary.Problem
import WasmBinary.Proofs.JsonText
import WasmBinary.Proofs.SettingsReaders

/-!
# Data is read back from JSON

A type is lawful if what is written for a value is read back as that value (`LawfulJson`). A value that may be missing is lawful too, as long
as no value is written as `null` (`NeverNull`). A record without two fields of one name gives all its fields back, those that were left out
and those that were written as `null` told apart (`fields?_ofFields`); so a record is lawful if its fields are (`LawfulJson.ofRecord`). With
the text of a JSON value parsed back, data of a lawful type survives as text, and a text that stands for data is rewritten only once
(`roundTrips`).
-/

namespace WasmBinary

/-- A type whose values are read back from what is written for them. -/
class LawfulJson (α : Type) [JsonData α] : Prop where
  /-- What is written for a value is read back as the value. -/
  ofJson?_toJson (a : α) : ofJson? (toJson a) = some a

/-- A type of which no value is written as `null`, which is left for a value that is missing. -/
class NeverNull (α : Type) [JsonData α] : Prop where
  /-- No value is written as `null`. -/
  toJson_ne_null (a : α) : toJson a ≠ .null

attribute [simp] LawfulJson.ofJson?_toJson

namespace Json

/-! ## Fields -/

/-- The members that are written for fields: those that are there. -/
def present (fields : List (String × Option Json)) : List (String × Json) :=
  fields.filterMap fun f => f.2.map (f.1, ·)

theorem present_cons (f : String × Option Json) (fields : List (String × Option Json)) :
    present (f :: fields) = (f.2.map (f.1, ·)).toList ++ present fields := by
  obtain ⟨name, field⟩ := f
  cases field <;> simp [present]

theorem name_mem_of_mem_present {fields : List (String × Option Json)} {m : String × Json} (h : m ∈ present fields) :
    m.1 ∈ fields.map Prod.fst := by
  obtain ⟨f, hf, hm⟩ := List.mem_filterMap.1 h
  obtain ⟨v, -, rfl⟩ := Option.map_eq_some_iff.1 hm
  exact List.mem_map_of_mem hf

/-- Of fields of different names, each is found under its name as it is, there or not. -/
theorem field?_present {fields : List (String × Option Json)} (h : (fields.map Prod.fst).Nodup) {f : String × Option Json}
    (hf : f ∈ fields) : field? (present fields) f.1 = some f.2 := by
  have hfilter : (present fields).filter (fun m => m.1 = f.1) = (f.2.map (f.1, ·)).toList := by
    induction fields with
    | nil => simp at hf
    | cons g fields ih =>
      rw [List.map_cons, List.nodup_cons] at h
      rw [present_cons, List.filter_append]
      rcases List.mem_cons.1 hf with rfl | hf
      · have hothers : (present fields).filter (fun m => m.1 = f.1) = [] := by
          rw [List.filter_eq_nil_iff]
          intro m hm heq
          simp only [decide_eq_true_eq] at heq
          exact h.1 (heq ▸ name_mem_of_mem_present hm)
        rw [hothers]
        cases f.2 <;> simp
      · have hne : g.1 ≠ f.1 := fun heq => h.1 (heq ▸ List.mem_map_of_mem hf)
        rw [ih h.2 hf]
        cases g.2 <;> simp [hne]
  unfold field?
  rw [hfilter]
  cases f.2 <;> rfl

/-- A record gives back the fields it was written with. -/
theorem fields?_ofFields {names : List String} {fields : List (String × Option Json)} (hnames : fields.map Prod.fst = names)
    (h : names.Nodup) : (ofFields fields).fields? names = some (fields.map Prod.snd) := by
  subst hnames
  have hmembers : ofFields fields = obj ((present fields).map fun m => (some m.1, m.2)) := by
    unfold ofFields present
    rw [List.map_filterMap]
    refine congrArg obj (List.filterMap_congr fun f _ => ?_)
    cases f.2 <;> rfl
  have hkeys : ((present fields).map fun m => (some m.1, m.2)).mapM (fun m => m.1.map (·, m.2)) = some (present fields) := by
    rw [mapM_eq_some, List.forall₂_map_left_iff, List.forall₂_same]
    exact fun m _ => rfl
  have hfields : (fields.map Prod.fst).mapM (field? (present fields)) = some (fields.map Prod.snd) := by
    rw [mapM_eq_some, List.forall₂_map_left_iff, List.forall₂_map_right_iff, List.forall₂_same]
    exact fun f hf => field?_present h hf
  rw [hmembers]
  show objectFields? _ _ = _
  unfold objectFields?
  rw [hkeys]
  exact hfields

end Json

/-! ## Lawful types -/

section

variable {α : Type} [JsonData α] [LawfulJson α]

instance : LawfulJson (List α) where
  ofJson?_toJson as := by
    show (as.map toJson).mapM ofJson? = some as
    rw [mapM_eq_some, List.forall₂_map_left_iff, List.forall₂_same]
    exact fun a _ => LawfulJson.ofJson?_toJson a

instance [NeverNull α] : LawfulJson (Option α) where
  ofJson?_toJson
    | none => rfl
    | some a => by
      show Json.optional? (some (toJson a)) = some (some a)
      rw [Json.optional?_some (NeverNull.toJson_ne_null a), LawfulJson.ofJson?_toJson]
      rfl

namespace Json

@[simp] theorem required?_toJson (a : α) : required? (some (toJson a)) = some a :=
  LawfulJson.ofJson?_toJson a

variable [NeverNull α]

/-- A field that is written as `null` if it is missing. -/
@[simp] theorem optional?_toJson (a : Option α) : optional? (some (toJson a)) = some a :=
  LawfulJson.ofJson?_toJson a

/-- A field that is left out if it is missing. -/
@[simp] theorem optional?_map_toJson (a : Option α) : optional? (a.map toJson) = some a := by
  cases a with
  | none => rfl
  | some a => exact LawfulJson.ofJson?_toJson (some a)

end Json

end

instance : NeverNull String := ⟨nofun⟩

instance : LawfulJson String := ⟨fun _ => rfl⟩

instance : LawfulJson UInt32 where
  ofJson?_toJson n := by
    have hlt : n.toNat < 0x100000000 := n.toNat_lt
    show (if n.toNat < 0x100000000 then some n.toNat.toUInt32 else none) = some n
    rw [if_pos hlt, Nat.toUInt32_eq, UInt32.ofNat_toNat]

instance : NeverNull ValueType := ⟨nofun⟩

instance : LawfulJson ValueType := ⟨ValueType.ofName?_name⟩

instance : LawfulJson Severity where
  ofJson?_toJson s := by cases s <;> decide +kernel

/-! ## Lawful records -/

/-- A record is lawful if it can be built from the fields that are written for it. -/
theorem LawfulJson.ofRecord {α : Type} [JsonData α] {names : List String} {fields : α → List (String × Option Json)}
    {build : List (Option Json) → Option α} (htoJson : ∀ a : α, toJson a = .ofFields (fields a))
    (hofJson? : ∀ j : Json, ofJson? j = j.fields? names >>= build) (hnames : ∀ a, (fields a).map Prod.fst = names)
    (hnodup : names.Nodup) (hbuild : ∀ a, build ((fields a).map Prod.snd) = some a) : LawfulJson α where
  ofJson?_toJson a := by
    rw [htoJson, hofJson?, Json.fields?_ofFields (hnames a) hnodup]
    exact hbuild a

instance : LawfulJson Signature :=
  .ofRecord (fun _ => rfl) (fun _ => rfl) (fun _ => rfl) (by decide) (by simp)

instance : NeverNull Method := ⟨nofun⟩

instance : LawfulJson Method :=
  .ofRecord (fun _ => rfl) (fun _ => rfl) (fun _ => rfl) (by decide) (by simp)

instance : NeverNull SourceLine := ⟨nofun⟩

instance : LawfulJson SourceLine :=
  .ofRecord (fun _ => rfl) (fun _ => rfl) (fun _ => rfl) (by decide) (by simp)

instance : NeverNull Place := ⟨nofun⟩

instance : LawfulJson Place :=
  .ofRecord (fun _ => rfl) (fun _ => rfl) (fun _ => rfl) (by decide) (by simp)

instance : LawfulJson Problem :=
  .ofRecord (fun _ => rfl) (fun _ => rfl) (fun _ => rfl) (by decide) (by simp)

/-! ## Texts -/

namespace Json

/-- A text as it is written for the value that it stands for. -/
def rewrite? (α : Type) [JsonData α] (text : String) : Option String :=
  (read? text : Option α).map write

/-- Values survive as text, and rewriting a text keeps its value and is done once and for all. -/
structure RoundTrips (α : Type) [JsonData α] : Prop where
  /-- What is written for a value is read as the value. -/
  read?_write (a : α) : read? (write a) = some a
  /-- A text that was rewritten stands for the same value as before. -/
  read?_rewrite? {text rewritten : String} (h : rewrite? α text = some rewritten) : (read? rewritten : Option α) = read? text
  /-- It is written for its value as it is. -/
  rewrite?_rewrite? {text rewritten : String} (h : rewrite? α text = some rewritten) : rewrite? α rewritten = some rewritten

variable {α : Type} [JsonData α] [LawfulJson α]

theorem read?_write_of_lawful (a : α) : read? (write a) = some a := by
  simp [read?, write]

theorem roundTrips_of_lawful : RoundTrips α where
  read?_write := read?_write_of_lawful
  read?_rewrite? := by
    intro text rewritten h
    obtain ⟨a, ha, rfl⟩ := Option.map_eq_some_iff.1 h
    rw [ha, read?_write_of_lawful]
  rewrite?_rewrite? := by
    intro text rewritten h
    obtain ⟨a, -, rfl⟩ := Option.map_eq_some_iff.1 h
    simp [rewrite?, read?_write_of_lawful]

end Json

/-- Signatures, methods, lines, places and problems survive as JSON texts. This holds for all texts that they contain, and for every choice of
the parts that may be missing. -/
theorem data_json_roundTrips :
    Json.RoundTrips Signature ∧ Json.RoundTrips Method ∧ Json.RoundTrips SourceLine ∧ Json.RoundTrips Place ∧ Json.RoundTrips Problem :=
  ⟨Json.roundTrips_of_lawful, Json.roundTrips_of_lawful, Json.roundTrips_of_lawful, Json.roundTrips_of_lawful, Json.roundTrips_of_lawful⟩

/-- A problem given as an array, with escapes that are not needed and a member that is no field: it is rewritten as a record. Its place, of which
nothing is known, is not taken for one that is missing. -/
theorem data_json_roundTrips_array :
    let text := "[\"warning\", \"\\u0007\\/\\\"\", \x7b\"source\": null, \"column\": [7]\x7d]"
    let rewritten :=
      "\x7b\"severity\":\"warning\",\"text\":\"\\u0007/\\\"\",\"location\":\x7b\"method\":null,\"source\":null\x7d\x7d"
    Json.read? text = some (⟨.warning, "\x07/\"", some ⟨none, none⟩⟩ : Problem) ∧ Json.rewrite? Problem text = some rewritten ∧
      (Json.read? rewritten : Option Problem) = Json.read? text ∧ Json.rewrite? Problem rewritten = some rewritten := by
  intro text rewritten
  have hread : Json.read? text = some (⟨.warning, "\x07/\"", some ⟨none, none⟩⟩ : Problem) := by decide +kernel
  have hrewritten : Json.rewrite? Problem text = some rewritten := by decide +kernel
  obtain ⟨-, -, -, -, hproblem⟩ := data_json_roundTrips
  exact ⟨hread, hrewritten, hproblem.read?_rewrite? hrewritten, hproblem.rewrite?_rewrite? hrewritten⟩

end WasmBinary
