import DomainColoring.Proofs.Binary64.Exceptions
import DomainColoring.Proofs.Json.Record
import DomainColoring.Proofs.Json.Spelling
import DomainColoring.Settings

/-!
# Settings are read as they were written

The text of settings that drawing can use is read back, decoded and accepted, field by field. The
numbers in them are finite, so that none is written as `null`; that their digits are rounded to the
same numbers again is assumed of each of them.
-/

namespace DomainColoring

/-- The bounds of a segment are those that a segment can be made of. -/
def Segment.IsProper (s : Segment) : Prop :=
  Segment.isValid s.min s.max = true

theorem Segment.decode_toJson {s : Segment} (proper : s.IsProper) : decode s.toJson = .ok s := by
  have sets : Json.Sets bounds.fields [("min", .real s.min), ("max", .real s.max)] bounds.start
      (s.min, s.max) :=
    .cons rfl (.cons rfl (.nil _))
  have decoded := Json.decode_of_sets sets (by decide)
  rw [decode, toJson, decoded]
  have made : make s.min s.max = .ok s := if_pos proper
  exact Outcome.mapError_eq_ok_iff.mpr made

theorem Segment.isSound_toJson {s : Segment} (min : Json.ReadsBack (.real s.min))
    (max : Json.ReadsBack (.real s.max)) : Json.IsSound s.toJson :=
  Json.isSound_record (by
    simp only [List.forall_mem_cons]
    exact ⟨.scalar min, .scalar max, nofun⟩)

theorem DepthKey.decode_toJson (key : DepthKey) : decode key.toJson = .ok key := by
  cases key <;> rfl

theorem Color.decodeChannel_natural (channel : UInt8) :
    decodeChannel (.natural channel.toUInt64) = .ok channel := by
  have small : channel.toUInt64.toNat ≤ 255 := by
    rw [UInt8.toNat_toUInt64]
    have bound := channel.toNat_lt
    omega
  rw [decodeChannel, Json.decodeNatural, if_pos small]
  simp [Except.map]

theorem Color.decode_toJson (c : Color) : decode c.toJson = .ok c := by
  have sets : Json.Sets record.fields
      [("r", .natural c.r.toUInt64), ("g", .natural c.g.toUInt64), ("b", .natural c.b.toUInt64)]
      record.start c :=
    .decoded (decodeChannel_natural c.r) <| .decoded (decodeChannel_natural c.g) <|
      .decoded (decodeChannel_natural c.b) <| .nil c
  exact Json.decode_of_sets sets (by decide)

theorem Json.decodeNatural_natural {greatest : Nat} {expected : String} {value : UInt64}
    (small : value.toNat ≤ greatest) :
    decodeNatural greatest expected (.natural value) = .ok value :=
  if_pos small

theorem Json.decodeCount_natural (value : UInt64) : decodeCount (.natural value) = .ok value :=
  decodeNatural_natural (Nat.le_sub_one_of_lt value.toNat_lt)

theorem Json.decodeReal_real (x : Float) : decodeReal (.real x) = .ok x := rfl

/-- A text is decoded if its value is and nothing but space stands behind that. -/
theorem Json.decodeText_eq_ok_iff {Value : Type} {decode : Json → Except DecodeError Value}
    {text : List Char} {decoded : Value} : decodeText decode text = .ok decoded ↔
      ∃ value, read text = (value, true) ∧ decode value = .ok decoded := by
  rcases found : read text with ⟨value, ended⟩
  rw [decodeText, found]
  cases ended <;> simp [Outcome.bind_eq_ok_iff, Outcome.throw_ne_ok]

theorem Json.decodeText_of_read {Value : Type} {decode : Json → Except DecodeError Value}
    {text : List Char} {value : Json} {decoded : Value} (whole : read text = (value, true)) :
    decodeText decode text = .ok decoded ↔ decode value = .ok decoded := by
  rw [decodeText_eq_ok_iff, whole]
  constructor
  · rintro ⟨_, ⟨⟩, found⟩
    exact found
  · exact fun found => ⟨value, rfl, found⟩

theorem Style.contains_of_checkComponent {component : ColorComponent} {x : Float}
    (checked : checkComponent component x = .ok ()) : Segment.unit.contains x = true := by
  unfold checkComponent at checked
  split at checked
  · assumption
  · cases checked

theorem Segment.isFinite_of_contains {x : Float} (inside : Segment.unit.contains x = true) :
    x.isFinite = true := by
  rw [contains, Bool.and_eq_true, decide_eq_true_iff, decide_eq_true_iff] at inside
  exact Binary64.isFinite_of_between (by decide) (by decide) inside.1 inside.2

namespace Settings

variable {s : Settings}

/-- The numbers in settings that need not be whole. -/
def numbers (s : Settings) : List Float :=
  [s.hue.min, s.hue.max, s.lightness.min, s.lightness.max, s.meshThickness, s.saturation,
    s.meshSaturation]

theorem decode_toJson (version : s.version ≤ supportedVersion) (hue : s.hue.IsProper)
    (lightness : s.lightness.IsProper) : decode s.toJson = .ok s := by
  have versionFits : s.version.toNat ≤ Nat.pow 2 32 - 1 :=
    Nat.le_trans (UInt64.le_iff_toNat_le.mp version) (by decide)
  have threads {written : Json} (shape : written = s.threads.elim .null .natural) :
      Json.decodeOptional Json.decodeCount written = .ok s.threads := by
    rw [shape]
    cases s.threads with
    | none => rfl
    | some count => exact Outcome.map_eq_ok_iff.mpr ⟨count, Json.decodeCount_natural count, rfl⟩
  refine Json.decode_of_sets ?_ (by decide)
  exact .decoded (Json.decodeNatural_natural versionFits) <|
    .decoded (Json.decodeCount_natural s.width) <| .decoded (Json.decodeCount_natural s.height) <|
    .decoded (Json.decodeCount_natural s.quality) <| .decoded (DepthKey.decode_toJson s.depthKey) <|
    .decoded (threads (by cases s.threads <;> rfl)) <| .decoded (Segment.decode_toJson hue) <|
    .decoded (Segment.decode_toJson lightness) <| .decoded (Json.decodeCount_natural s.meshCount) <|
    .decoded (Json.decodeReal_real s.meshThickness) <|
    .decoded (Json.decodeReal_real s.saturation) <|
    .decoded (Json.decodeReal_real s.meshSaturation) <|
    .decoded (Color.decode_toJson s.background) <| .nil s

/-- None of the numbers in settings that drawing can use is written as `null`. -/
theorem isFinite_of_validate (valid : s.validate = .ok ()) :
    ∀ x ∈ s.numbers, x.isFinite = true := by
  obtain ⟨-, -, valid⟩ := Outcome.bind_eq_ok_iff.mp valid
  obtain ⟨-, -, valid⟩ := Outcome.bind_eq_ok_iff.mp valid
  obtain ⟨-, -, valid⟩ := Outcome.bind_eq_ok_iff.mp valid
  obtain ⟨⟨⟩, hueMin, valid⟩ := Outcome.bind_eq_ok_iff.mp valid
  obtain ⟨⟨⟩, hueMax, valid⟩ := Outcome.bind_eq_ok_iff.mp valid
  obtain ⟨⟨⟩, lightnessMin, valid⟩ := Outcome.bind_eq_ok_iff.mp valid
  obtain ⟨⟨⟩, lightnessMax, valid⟩ := Outcome.bind_eq_ok_iff.mp valid
  obtain ⟨⟨⟩, saturation, valid⟩ := Outcome.bind_eq_ok_iff.mp valid
  obtain ⟨⟨⟩, meshSaturation, valid⟩ := Outcome.bind_eq_ok_iff.mp valid
  obtain ⟨⟨⟩, mesh, -⟩ := Outcome.bind_eq_ok_iff.mp valid
  have inUnit {component : ColorComponent} {x : Float}
      (checked : Style.checkComponent component x = .ok ()) : x.isFinite = true :=
    Segment.isFinite_of_contains (Style.contains_of_checkComponent checked)
  have thickness : s.meshThickness.isFinite = true := by
    unfold Style.checkMesh at mesh
    split at mesh
    · next accepted =>
      simp only [Bool.and_eq_true] at accepted
      exact accepted.1.2
    · cases mesh
  simp only [numbers, List.forall_mem_cons]
  exact ⟨inUnit hueMin, inUnit hueMax, inUnit lightnessMin, inUnit lightnessMax, thickness,
    inUnit saturation, inUnit meshSaturation, nofun⟩

theorem isSound_toJson (reads : ∀ x ∈ s.numbers, Json.ReadsBack (.real x)) :
    Json.IsSound s.toJson := by
  simp only [numbers, List.forall_mem_cons] at reads
  obtain ⟨hueMin, hueMax, lightnessMin, lightnessMax, thickness, saturation, meshSaturation, -⟩ :=
    reads
  have color : Json.IsSound s.background.toJson :=
    Json.isSound_record (by
      simp only [List.forall_mem_cons]
      exact ⟨.scalar (.natural _), .scalar (.natural _), .scalar (.natural _), nofun⟩)
  refine Json.isSound_record ?_
  simp only [List.forall_mem_cons]
  refine ⟨.scalar (.natural _), .scalar (.natural _), .scalar (.natural _), .scalar (.natural _),
    .scalar (.string _), ?threads, Segment.isSound_toJson hueMin hueMax,
    Segment.isSound_toJson lightnessMin lightnessMax, .scalar (.natural _), .scalar thickness,
    .scalar saturation, .scalar meshSaturation, color, nofun⟩
  cases s.threads with
  | none => exact .scalar .null
  | some count => exact .scalar (.natural count)

/-- The text of settings that drawing can use is read back to the same settings. -/
theorem read_write (valid : s.validate = .ok ()) (hue : s.hue.IsProper)
    (lightness : s.lightness.IsProper) (rereads : ∀ x ∈ s.numbers, Json.Rereads x) :
    read s.write = .ok s := by
  have version : s.version ≤ supportedVersion := by
    obtain ⟨⟨⟩, checked, -⟩ := Outcome.bind_eq_ok_iff.mp valid
    unfold checkVersion at checked
    split at checked
    · assumption
    · cases checked
  have sound : Json.IsSound s.toJson :=
    isSound_toJson fun x isNumber =>
      .real (isFinite_of_validate valid x isNumber) (rereads x isNumber)
  have decoded : Json.decodeText decode s.write = .ok s :=
    (Json.decodeText_of_read (Json.read_indented sound)).mpr
      (decode_toJson version hue lightness)
  refine Outcome.bind_eq_ok_iff.mpr ⟨s, Outcome.mapError_eq_ok_iff.mpr decoded, ?_⟩
  exact Outcome.bind_eq_ok_iff.mpr ⟨(), valid, rfl⟩

end Settings
end DomainColoring
