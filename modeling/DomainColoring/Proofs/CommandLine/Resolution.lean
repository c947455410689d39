import DomainColoring.CommandLine.Run
import DomainColoring.Proofs.Settings.Rearrangement
import DomainColoring.Proofs.Storage.Host

/-!
# The settings of a run

The settings of a run are those of its file, part by part, with what options put in their place. The
file has to be valid without the options, and what comes of both has to be valid too. How the file
arranges its members makes no difference.
-/

namespace DomainColoring.CommandLine

open Settings (Member Comparison Rearranged)

variable {State : Type} {h : Host (StateM State)} {before : State} {i : Invocation}
  {base s : Settings} {text : List Char}

/-- What an option puts in place of a part of the settings. -/
def Invocation.given (i : Invocation) : (m : Member) → Option m.Content
  | .width => i.width
  | .height => i.height
  | .quality => i.quality
  | .depthKey => i.depthKey
  | .threads => i.threads.map some
  | _ => none

/-- Settings before any option: those that the file holds, or the standard ones without a file. -/
def Invocation.Provides (i : Invocation) (h : Host (StateM State)) (before : State)
    (base : Settings) : Prop :=
  match i.config with
  | none => base = .standard
  | some path => ∃ text, ((h.readText ⟨path⟩).run before).1 = .ok text ∧
      Json.decodeText Settings.decode text = .ok base

theorem provides_iff {path : String} (config : i.config = some path)
    (found : ((h.readText ⟨path⟩).run before).1 = .ok text) :
    i.Provides h before base ↔ Json.decodeText Settings.decode text = .ok base := by
  unfold Invocation.Provides
  rw [config]
  constructor
  · rintro ⟨other, foundOther, decoded⟩
    obtain rfl := Except.ok.inj (foundOther.symm.trans found)
    exact decoded
  · exact fun decoded => ⟨text, found, decoded⟩

/-- What a text was read to can be skipped, as far as no settings are in it. -/
theorem skippable_of_read {members : List (Json × Json)}
    (read : Json.read text = (.object members true, true)) : Settings.Skippable members := by
  intro member isMember _
  cases Json.isComplete_of_read read with
  | object _ values => exact (values member isMember).isPassable

theorem view_override (i : Invocation) (s : Settings) (m : Member) :
    m.view (override i s) = (i.given m).getD (m.view s) := by
  cases m with
  | threads =>
    change (i.threads <|> s.threads) = (i.threads.map some).getD s.threads
    cases i.threads <;> rfl
  | _ => rfl

theorem eq_override_iff :
    s = override i base ↔ ∀ m : Member, m.view s = (i.given m).getD (m.view base) := by
  constructor
  · rintro rfl m
    exact view_override i base m
  · exact fun parts => Settings.ext_view fun m => (parts m).trans (view_override i base m).symm

theorem read_eq_ok_iff : Settings.read text = .ok s ↔
    Json.decodeText Settings.decode text = .ok s ∧ s.validate = .ok () := by
  rw [Settings.read, Outcome.bind_eq_ok_iff]
  constructor
  · rintro ⟨found, decoded, checked⟩
    obtain ⟨valid, same⟩ := Outcome.check_bind_eq_ok_iff.mp checked
    cases same
    exact ⟨Outcome.mapError_eq_ok_iff.mp decoded, valid⟩
  · rintro ⟨decoded, valid⟩
    exact ⟨s, Outcome.mapError_eq_ok_iff.mpr decoded, Outcome.check_bind_eq_ok_iff.mpr ⟨valid, rfl⟩⟩

theorem loadOrStandard_eq_ok_iff :
    ((Settings.loadOrStandard h (i.config.map Path.mk)).run before).1 = .ok base ↔
      i.Provides h before base ∧ base.validate = .ok () := by
  unfold Invocation.Provides
  cases i.config with
  | none =>
    constructor
    · intro same
      cases same
      exact ⟨rfl, rfl⟩
    · rintro ⟨rfl, -⟩
      rfl
  | some path =>
    dsimp only [Option.map_some, Settings.loadOrStandard]
    rw [Settings.load, Host.run_bind]
    rcases (h.readText ⟨path⟩).run before with ⟨error | text, after⟩
    · exact iff_of_false nofun fun ⟨⟨_, found, _⟩, _⟩ => nomatch found
    · refine (@read_eq_ok_iff base text).trans ?_
      refine and_congr_left fun _ => ⟨fun decoded => ⟨text, rfl, decoded⟩, ?_⟩
      rintro ⟨_, ⟨⟩, decoded⟩
      exact decoded

theorem resolveSettings_eq_ok_iff : ((resolveSettings h i).run before).1 = .ok s ↔
    ∃ base, i.Provides h before base ∧ base.validate = .ok () ∧ s.validate = .ok () ∧
      s = override i base := by
  simp only [← and_assoc, ← loadOrStandard_eq_ok_iff]
  rw [resolveSettings, Host.run_bind]
  rcases (Settings.loadOrStandard h (i.config.map Path.mk)).run before with ⟨error | base, after⟩
  · exact iff_of_false nofun fun ⟨_, ⟨found, _⟩, _⟩ => nomatch found
  · constructor
    · intro resolved
      obtain ⟨⟨⟩, valid, rfl⟩ := Outcome.map_eq_ok_iff.mp resolved
      exact ⟨base, ⟨rfl, valid⟩, rfl⟩
    · rintro ⟨_, ⟨⟨⟩, valid⟩, rfl⟩
      exact Outcome.map_eq_ok_iff.mpr ⟨(), valid, rfl⟩

/-- Options put in place of the same parts leave the same settings. -/
theorem same_override {c : Comparison} {base base' : Settings}
    (same : ∀ m : Member, m.Same c (m.view base) (m.view base'))
    (valid : (override i base).validate = .ok ()) (m : Member) :
    m.Same c (m.view (override i base)) (m.view (override i base')) := by
  have reflexive := Member.Same.of_valid valid c m
  rw [view_override] at reflexive ⊢
  rw [view_override]
  cases given : i.given m with
  | none => exact same m
  | some content =>
    rw [given] at reflexive
    exact reflexive

/-- A run has settings exactly if its file, if there is one, can be decoded and is valid, and what
comes of it with the options is valid too; then each part is that of its option, if this is given,
and that of the file otherwise. A file is decoded exactly if it has the form of settings and each of
its members can be decoded, and a part without a member is the standard one. From a file with the
same members in another arrangement come the same settings. -/
theorem resolveSettings_merges :
    (∀ (State : Type) (h : Host (StateM State)) (i : Invocation) (before : State) (s : Settings),
      ((resolveSettings h i).run before).1 = .ok s ↔
        ∃ base, i.Provides h before base ∧ base.validate = .ok () ∧ s.validate = .ok () ∧
          ∀ m : Member, m.view s = (i.given m).getD (m.view base)) ∧
    (∀ text base, Json.decodeText Settings.decode text = .ok base ↔
      ∃ value, Json.read text = (value, true) ∧ Settings.record.HasForm value ∧
        base.ComesFrom value) ∧
    ∀ (c : Comparison) (State State' : Type) (h : Host (StateM State)) (h' : Host (StateM State'))
      (before : State) (before' : State') (i : Invocation) (path : String) (text text' : List Char)
      (members members' : List (Json × Json)) (s : Settings), i.config = some path →
      ((h.readText ⟨path⟩).run before).1 = .ok text →
      ((h'.readText ⟨path⟩).run before').1 = .ok text' →
      Json.read text = (.object members true, true) →
      Json.read text' = (.object members' true, true) → Rearranged c members members' →
      ((resolveSettings h i).run before).1 = .ok s →
      ∃ s', ((resolveSettings h' i).run before').1 = .ok s' ∧
        (∀ m : Member, m.Same c (m.view s) (m.view s')) ∧ (c = .exact → s' = s) := by
  refine ⟨fun State h i before s => ?_, fun text base => ?_, ?_⟩
  · rw [resolveSettings_eq_ok_iff]
    simp only [eq_override_iff]
  · rw [Json.decodeText_eq_ok_iff]
    simp only [Settings.decode_eq_ok_iff]
  · rintro c State State' h h' before before' i path text text' members members' s config found
      found' read read' rearranged resolved
    obtain ⟨base, provides, baseValid, valid, rfl⟩ := resolveSettings_eq_ok_iff.mp resolved
    have decoded := (Json.decodeText_of_read read).mp ((provides_iff config found).mp provides)
    obtain ⟨base', decoded', baseValid', same⟩ :=
      rearranged.decode (skippable_of_read read') decoded baseValid
    have provides' :=
      (provides_iff config found').mpr ((Json.decodeText_of_read read').mpr decoded')
    have sameOverride := same_override same valid
    have valid' := Settings.validate_of_same sameOverride valid
    refine ⟨override i base', ?_, sameOverride, fun exact => ?_⟩
    · exact resolveSettings_eq_ok_iff.mpr ⟨base', provides', baseValid', valid', rfl⟩
    · subst exact
      exact (Settings.ext_view sameOverride).symm

/-- A file with a height and a width, and one with both in the other order, the standard quality and
a member that settings do not have. -/
theorem resolveSettings_two_arrangements :
    let members : List (Json × Json) :=
      [(.text "height", .natural 700), (.text "width", .natural 900)]
    let members' : List (Json × Json) :=
      [(.text "color", .list [.natural 1, .null]), (.text "quality", .natural 8000),
        (.text "width", .natural 900), (.text "height", .natural 700)]
    let text := (Json.object members true).compactText
    let text' := (Json.object members' true).compactText
    let world (text : List Char) : World := ⟨⟨[(["r.json"], .file (.text text))], []⟩, []⟩
    let i : Invocation := ⟨.configSchema, some "r.json", some 500, none, none, none, some 2, false⟩
    let s := { Settings.standard with width := 500, height := 700, threads := some 2 }
    ((World.host.readText ⟨"r.json"⟩).run (world text)).1 = .ok text ∧
    ((World.host.readText ⟨"r.json"⟩).run (world text')).1 = .ok text' ∧
    Json.read text = (.object members true, true) ∧
    Json.read text' = (.object members' true, true) ∧ Rearranged .exact members members' ∧
    ((resolveSettings World.host i).run (world text)).1 = .ok s ∧
    ((resolveSettings World.host i).run (world text')).1 = .ok s := by
  intro members members' text text' world i s
  have found (text : List Char) :
      ((World.host.readText ⟨"r.json"⟩).run (world text)).1 = .ok text := by
    have leads : (world text).files.locate ⟨"r.json"⟩ = .ok ["r.json"] :=
      (FileTree.locate_entry_iff (by decide)).mpr
        ⟨by decide, by decide, [], rfl, [], rfl, by decide, rfl⟩
    exact FileTree.readText_eq_ok_iff.mpr ⟨_, leads, rfl, by decide⟩
  have read : Json.read text = (.object members true, true) := by
    have sound : Json.IsSound (.record [("height", .natural 700), ("width", .natural 900)]) :=
      Json.isSound_record (by
        simp only [List.forall_mem_cons]
        exact ⟨.scalar (.natural _), .scalar (.natural _), nofun⟩)
    exact Json.read_compact sound
  have read' : Json.read text' = (.object members' true, true) := by
    have color : Json.IsSound (.list [.natural 1, .null]) :=
      .array (by
        simp only [List.forall_mem_cons]
        exact ⟨.scalar (.natural _), .scalar .null, nofun⟩)
    have sound : Json.IsSound (.record [("color", .list [.natural 1, .null]),
        ("quality", .natural 8000), ("width", .natural 900), ("height", .natural 700)]) :=
      Json.isSound_record (by
        simp only [List.forall_mem_cons]
        exact ⟨color, .scalar (.natural _), .scalar (.natural _), .scalar (.natural _), nofun⟩)
    exact Json.read_compact sound
  have rearranged : Rearranged .exact members members' := by
    have noQuality : ∀ other, (Json.text Member.quality.name, other) ∉
        [(Json.text "width", Json.natural 900), (.text "height", .natural 700)] := by
      intro other given
      simp [Json.text_inj, Member.name] at given
    have noColor : ∀ m : Member, "color".toList ≠ m.name.toList := by
      intro m
      cases m <;> decide
    exact .trans (.permuted (.swap _ _ [])) <| .trans (.writtenOut noQuality rfl rfl) <|
      .added noColor _ _
  have resolved : ((resolveSettings World.host i).run (world text)).1 = .ok s := by
    have decoded : Settings.decode (.object members true) =
        .ok { Settings.standard with width := 900, height := 700 } := rfl
    have provides : i.Provides World.host (world text)
        { Settings.standard with width := 900, height := 700 } :=
      (provides_iff rfl (found text)).mpr ((Json.decodeText_of_read read).mpr decoded)
    have valid : { Settings.standard with
        width := 500, height := 700, threads := some 2 }.validate = .ok () := rfl
    exact resolveSettings_eq_ok_iff.mpr ⟨_, provides, rfl, valid, rfl⟩
  obtain ⟨-, -, arrangements⟩ := resolveSettings_merges
  obtain ⟨s', resolved', -, same⟩ := arrangements .exact World World World.host World.host
    (world text) (world text') i "r.json" text text' members members' s rfl (found text)
    (found text') read read' rearranged resolved
  exact ⟨found text, found text', read, read', rearranged, resolved, same rfl ▸ resolved'⟩

end DomainColoring.CommandLine
