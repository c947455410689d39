import DomainColoring.Json.Decoder
import DomainColoring.Proofs.Outcome
import Mathlib

/-!
# Fields of a record

Fields of a record are set one after another, each to a value of its own, and are found by their
names. Where the values come from is not looked at here.
-/

namespace DomainColoring.Json

variable {Value : Type} {fields : List (Field Value)} {known : List (String × Json)}
  {value : Json} {start finish : Value}

/-- Setting fields, one after another, to members with their names makes a record into another. -/
inductive Sets : List (Field Value) → List (String × Json) → Value → Value → Prop where
  | nil (record : Value) : Sets [] [] record record
  | cons {field : Field Value} {fields : List (Field Value)} {value : Json}
      {members : List (String × Json)} {record changed finish : Value}
      (first : field.set value record = .ok changed) (others : Sets fields members changed finish) :
      Sets (field :: fields) ((field.name, value) :: members) record finish

/-- Setting a field to what its decoder makes of a value sets it. -/
theorem Sets.decoded {Part : Type} {name : String} {required : Bool}
    {decode : Json → Except DecodeError Part} {update : Part → Value → Value} {part : Part}
    {record : Value} (decoded : decode value = .ok part)
    (others : Sets fields known (update part record) finish) :
    Sets
      (⟨name, required, fun value record => do return update (← decode value) record⟩ :: fields)
      ((name, value) :: known) record finish :=
  .cons (Outcome.bind_eq_ok_iff.mpr ⟨part, decoded, rfl⟩) others

theorem sets_nil_iff : Sets [] [] start finish ↔ start = finish := by
  constructor
  · intro sets
    cases sets
    rfl
  · rintro rfl
    exact .nil start

theorem sets_cons_iff {field : Field Value} :
    Sets (field :: fields) ((field.name, value) :: known) start finish ↔
      ∃ changed, field.set value start = .ok changed ∧ Sets fields known changed finish := by
  constructor
  · intro sets
    cases sets with
    | cons first others => exact ⟨_, first, others⟩
  · rintro ⟨changed, first, others⟩
    exact .cons first others

theorem Sets.names (sets : Sets fields known start finish) :
    known.map (·.1) = fields.map (·.name) := by
  induction sets with
  | nil => rfl
  | cons _ _ inductionHypothesis => rw [List.map_cons, List.map_cons, inductionHypothesis]

/-- What each field that is set leaves true is true in the end. -/
theorem Sets.keeps {Holds : Value → Prop} (sets : Sets fields known start finish)
    (each : ∀ field ∈ fields, ∀ value, (field.name, value) ∈ known → ∀ before after,
      field.set value before = .ok after → Holds before → Holds after)
    (holds : Holds start) : Holds finish := by
  induction sets with
  | nil => exact holds
  | cons first _ inductionHypothesis =>
    refine inductionHypothesis (fun field isField value given => ?_)
      (each _ List.mem_cons_self _ List.mem_cons_self _ _ first holds)
    exact each field (List.mem_cons_of_mem _ isField) value (List.mem_cons_of_mem _ given)

/-- Fields that can be set to what they are given can be set one after another. -/
theorem exists_sets (names : known.map (·.1) = fields.map (·.name))
    (settable : ∀ field ∈ fields, ∀ value, (field.name, value) ∈ known → ∀ before, ∃ after,
      field.set value before = .ok after) (start : Value) :
    ∃ finish, Sets fields known start finish := by
  induction fields generalizing known start with
  | nil =>
    obtain rfl := List.map_eq_nil_iff.mp names
    exact ⟨start, .nil start⟩
  | cons field fields inductionHypothesis =>
    obtain ⟨⟨name, value⟩, known, rfl, rfl, othersNames⟩ := List.map_eq_cons_iff.mp names
    obtain ⟨changed, first⟩ := settable field List.mem_cons_self value List.mem_cons_self start
    obtain ⟨finish, others⟩ := inductionHypothesis othersNames
      (fun field isField value given => settable field (List.mem_cons_of_mem _ isField) value
        (List.mem_cons_of_mem _ given)) changed
    exact ⟨finish, .cons first others⟩

/-- A field is found by its name, if no two fields have the same. -/
theorem find?_field {field : Field Value} (different : (fields.map (·.name)).Nodup)
    (member : field ∈ fields) :
    (fields.find? fun other => other.name.toList = field.name.toList) = some field := by
  induction fields with
  | nil => cases member
  | cons first rest inductionHypothesis =>
    rw [List.map_cons, List.nodup_cons] at different
    rcases List.mem_cons.mp member with rfl | later
    · simp
    · have other : first.name.toList ≠ field.name.toList := by
        intro same
        rw [String.toList_inj] at same
        exact different.1 (same ▸ List.mem_map_of_mem later)
      rw [List.find?_cons, decide_eq_false other]
      exact inductionHypothesis different.2 later

end DomainColoring.Json
