import DomainColoring.Proofs.Json.Record
import DomainColoring.Proofs.Settings.Drawing
import DomainColoring.Proofs.Settings.Text

/-!
# Settings part by part

Each part of settings is read from one member, by a decoder of its own, and stays what it is in the
standard settings without this member. All parts together make up the settings.
-/

namespace DomainColoring.Settings

/-- The members that settings are read from. -/
inductive Member where
  | version
  | width
  | height
  | quality
  | depthKey
  | threads
  | hue
  | lightness
  | meshCount
  | meshThickness
  | saturation
  | meshSaturation
  | background
deriving DecidableEq

namespace Member

/-- All members in the order of the fields. -/
def all : List Member :=
  [version, width, height, quality, depthKey, threads, hue, lightness, meshCount, meshThickness,
    saturation, meshSaturation, background]

theorem mem_all (m : Member) : m ∈ all := by
  cases m <;> decide

def name : Member → String
  | version => "version"
  | width => "width"
  | height => "height"
  | quality => "quality"
  | depthKey => "z_order"
  | threads => "threads"
  | hue => "hue"
  | lightness => "lightness"
  | meshCount => "mesh_count"
  | meshThickness => "mesh_thickness"
  | saturation => "saturation"
  | meshSaturation => "mesh_saturation"
  | background => "background"

/-- What a member holds. -/
def Content : Member → Type
  | version | width | height | quality | meshCount => UInt64
  | depthKey => DepthKey
  | threads => Option UInt64
  | hue | lightness => Segment
  | meshThickness | saturation | meshSaturation => Float
  | background => Color

/-- How what a member holds is read. -/
def decode : (m : Member) → Json → Except DecodeError m.Content
  | version => Json.decodeNatural (Nat.pow 2 32 - 1) "u32"
  | width | height | quality | meshCount => Json.decodeCount
  | depthKey => DepthKey.decode
  | threads => Json.decodeOptional Json.decodeCount
  | hue | lightness => Segment.decode
  | meshThickness | saturation | meshSaturation => Json.decodeReal
  | background => Color.decode

/-- The part of settings that is read from a member. -/
def view : (m : Member) → Settings → m.Content
  | version, s => s.version
  | width, s => s.width
  | height, s => s.height
  | quality, s => s.quality
  | depthKey, s => s.depthKey
  | threads, s => s.threads
  | hue, s => s.hue
  | lightness, s => s.lightness
  | meshCount, s => s.meshCount
  | meshThickness, s => s.meshThickness
  | saturation, s => s.saturation
  | meshSaturation, s => s.meshSaturation
  | background, s => s.background

/-- The settings with another part. -/
def put : (m : Member) → m.Content → Settings → Settings
  | version, content, s => { s with version := content }
  | width, content, s => { s with width := content }
  | height, content, s => { s with height := content }
  | quality, content, s => { s with quality := content }
  | depthKey, content, s => { s with depthKey := content }
  | threads, content, s => { s with threads := content }
  | hue, content, s => { s with hue := content }
  | lightness, content, s => { s with lightness := content }
  | meshCount, content, s => { s with meshCount := content }
  | meshThickness, content, s => { s with meshThickness := content }
  | saturation, content, s => { s with saturation := content }
  | meshSaturation, content, s => { s with meshSaturation := content }
  | background, content, s => { s with background := content }

theorem view_put (m : Member) (content : m.Content) (s : Settings) :
    m.view (m.put content s) = content := by
  cases m <;> rfl

theorem view_put_of_ne {m other : Member} (different : other ≠ m) (content : other.Content)
    (s : Settings) : m.view (other.put content s) = m.view s := by
  cases m <;> cases other <;> first | rfl | exact absurd rfl different

theorem name_inj {m other : Member} : m.name = other.name ↔ m = other := by
  refine ⟨fun same => ?_, congrArg name⟩
  revert same
  cases m <;> cases other <;> decide

/-- The field of a record that a member sets. -/
def field (m : Member) : Json.Field Settings :=
  ⟨m.name, false, fun value s => do return m.put (← m.decode value) s⟩

end Member

theorem fields_eq : record.fields = Member.all.map Member.field := rfl

/-- Settings with the same parts are the same. -/
theorem ext_view {s s' : Settings} (same : ∀ m : Member, m.view s = m.view s') : s = s' := by
  obtain ⟨⟩ := s
  obtain ⟨⟩ := s'
  simp only [Settings.mk.injEq]
  exact ⟨same .version, same .width, same .height, same .quality, same .depthKey, same .threads,
    same .hue, same .lightness, same .meshCount, same .meshThickness, same .saturation,
    same .meshSaturation, same .background⟩

theorem mem_fields_iff {field : Json.Field Settings} :
    field ∈ record.fields ↔ ∃ m : Member, m.field = field := by
  rw [fields_eq, List.mem_map]
  exact ⟨fun ⟨m, _, same⟩ => ⟨m, same⟩, fun ⟨m, same⟩ => ⟨m, m.mem_all, same⟩⟩

theorem different_names : (record.fields.map (·.name)).Nodup := by
  decide

/-- A member sets its own part and leaves the others as they are. -/
theorem isPart (m : Member) : record.IsPart m.name m.decode m.view where
  sets field isField sameName value before after set := by
    obtain ⟨other, rfl⟩ := mem_fields_iff.mp isField
    obtain rfl := Member.name_inj.mp sameName
    obtain ⟨content, decoded, rfl⟩ := Outcome.bind_pure_eq_ok_iff.mp set
    rw [Member.view_put]
    exact decoded
  keeps field isField otherName value before after set := by
    obtain ⟨other, rfl⟩ := mem_fields_iff.mp isField
    obtain ⟨content, -, rfl⟩ := Outcome.bind_pure_eq_ok_iff.mp set
    exact Member.view_put_of_ne (fun same => otherName (Member.name_inj.mpr same)) content before

/-- Each part is decoded from the value that is given to its member, or is the standard one. -/
def ComesFrom (value : Json) (s : Settings) : Prop :=
  ∀ m : Member, Json.Settles (record.Gives value m.name) (m.view standard) m.decode (m.view s)

/-- Settings are decoded from a value of their form if every part is, and are made up of these
parts. -/
theorem decode_eq_ok_iff {value : Json} {s : Settings} :
    decode value = .ok s ↔ record.HasForm value ∧ s.ComesFrom value := by
  have settles {s : Settings} (decoded : decode value = .ok s) : s.ComesFrom value := fun m =>
    (isPart m).settles different_names
      (List.mem_map_of_mem (mem_fields_iff.mpr ⟨m, rfl⟩)) decoded
  constructor
  · exact fun decoded => ⟨(Json.Record.sets_of_decode different_names decoded).1, settles decoded⟩
  · rintro ⟨form, comesFrom⟩
    have settable : ∀ field ∈ record.fields, ∀ part, record.Gives value field.name part →
        ∀ before, ∃ after, field.set part before = .ok after := by
      intro field isField part gives before
      obtain ⟨m, rfl⟩ := mem_fields_iff.mp isField
      exact ⟨_, Outcome.bind_pure_eq_ok_iff.mpr ⟨_, (comesFrom m).1 part gives, rfl⟩⟩
    obtain ⟨s', decoded⟩ := Json.Record.exists_decode different_names form settable
    have same : s = s' := ext_view fun m => (comesFrom m).unique (settles decoded m)
    rw [same]
    exact decoded

end DomainColoring.Settings
