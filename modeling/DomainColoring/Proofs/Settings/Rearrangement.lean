import DomainColoring.Proofs.Settings.Members

/-!
# Members of settings in another arrangement

The members of an object may stand in another order, members that settings do not have may be added,
and a member that holds what is standard may be left out or written out: valid settings stay the
same by that. A standard number may be written with the other sign if it is zero; then the settings
have equal numbers, and are as valid.
-/

namespace DomainColoring

namespace Binary64

variable {x y z bound : Float}

/-- Two numbers are equal as numbers, by which both zeros are. -/
def Equal (x y : Float) : Prop :=
  (x == y) = true

namespace Equal

theorem isNaN (same : Equal x y) : x.isNaN = false ∧ y.isNaN = false :=
  not_isNaN_of_beq same

theorem iff_signedUnits (xNumber : x.isNaN = false) (yNumber : y.isNaN = false) :
    Equal x y ↔ signedUnits x = signedUnits y :=
  beq_iff_signedUnits xNumber yNumber

theorem refl (number : x.isNaN = false) : Equal x x :=
  (iff_signedUnits number number).mpr rfl

theorem symm (same : Equal x y) : Equal y x := by
  obtain ⟨xNumber, yNumber⟩ := same.isNaN
  exact (iff_signedUnits yNumber xNumber).mpr ((iff_signedUnits xNumber yNumber).mp same).symm

theorem trans (first : Equal x y) (second : Equal y z) : Equal x z := by
  obtain ⟨xNumber, yNumber⟩ := first.isNaN
  obtain ⟨-, zNumber⟩ := second.isNaN
  rw [iff_signedUnits xNumber yNumber] at first
  rw [iff_signedUnits yNumber zNumber] at second
  exact (iff_signedUnits xNumber zNumber).mpr (first.trans second)

theorem above (same : Equal x y) (number : bound.isNaN = false) (above : bound ≤ x) :
    bound ≤ y := by
  obtain ⟨xNumber, yNumber⟩ := same.isNaN
  rw [le_iff_signedUnits number xNumber, (iff_signedUnits xNumber yNumber).mp same] at above
  exact (le_iff_signedUnits number yNumber).mpr above

theorem below (same : Equal x y) (number : bound.isNaN = false) (below : x ≤ bound) :
    y ≤ bound := by
  obtain ⟨xNumber, yNumber⟩ := same.isNaN
  rw [le_iff_signedUnits xNumber number, (iff_signedUnits xNumber yNumber).mp same] at below
  exact (le_iff_signedUnits yNumber number).mpr below

theorem isFinite (same : Equal x y) (finite : x.isFinite = true) : y.isFinite = true := by
  obtain ⟨number, -⟩ := same.isNaN
  have reflexive : x ≤ x := (le_iff_signedUnits number number).mpr le_rfl
  exact isFinite_of_between finite finite (same.above number reflexive)
    (same.below number reflexive)

end Equal
end Binary64

open Binary64 (Equal)

theorem Segment.contains_unit_of_equal {x y : Float} (same : Equal x y)
    (inside : unit.contains x = true) : unit.contains y = true := by
  rw [contains, Bool.and_eq_true, decide_eq_true_iff, decide_eq_true_iff] at inside ⊢
  exact ⟨same.above (by decide) inside.1, same.below (by decide) inside.2⟩

theorem Style.checkComponent_of_equal {component : ColorComponent} {x y : Float}
    (same : Equal x y) (checked : checkComponent component x = .ok ()) :
    checkComponent component y = .ok () :=
  if_pos (Segment.contains_unit_of_equal same (contains_of_checkComponent checked))

theorem Style.checkMesh_of_equal {count : UInt64} {x y : Float} (same : Equal x y)
    (checked : checkMesh count x = .ok ()) : checkMesh count y = .ok () := by
  unfold checkMesh at checked ⊢
  split at checked
  · next accepted =>
    simp only [Bool.and_eq_true, decide_eq_true_iff] at accepted ⊢
    exact if_pos ⟨⟨accepted.1.1, same.isFinite accepted.1.2⟩, same.above (by decide) accepted.2⟩
  · cases checked

namespace Settings

/-- How parts of settings are compared: exactly or as numbers. -/
inductive Comparison where
  | exact
  | numeric

/-- Two parts of settings are the same by a comparison. -/
def Member.Same (c : Comparison) (m : Member) (first second : m.Content) : Prop :=
  match c, m, first, second with
  | .numeric, hue, s, t | .numeric, lightness, s, t => Equal s.min t.min ∧ Equal s.max t.max
  | .numeric, meshThickness, x, y | .numeric, saturation, x, y
  | .numeric, meshSaturation, x, y => Equal x y
  | _, _, first, second => first = second

variable {c : Comparison} {s s' : Settings} {m : Member}

namespace Member.Same

theorem of_valid (valid : s.validate = .ok ()) (c : Comparison) (m : Member) :
    m.Same c (m.view s) (m.view s) := by
  have numbers : ∀ x ∈ s.numbers, Equal x x := fun x isNumber =>
    .refl (Binary64.isNaN_of_isFinite (isFinite_of_validate valid x isNumber))
  simp only [Settings.numbers, List.forall_mem_cons] at numbers
  obtain ⟨hueMin, hueMax, lightnessMin, lightnessMax, thickness, saturation, meshSaturation, -⟩ :=
    numbers
  cases c with
  | exact => cases m <;> rfl
  | numeric =>
    cases m with
    | hue => exact ⟨hueMin, hueMax⟩
    | lightness => exact ⟨lightnessMin, lightnessMax⟩
    | meshThickness => exact thickness
    | saturation => exact saturation
    | meshSaturation => exact meshSaturation
    | _ => rfl

theorem symm {first second : m.Content} (same : m.Same c first second) :
    m.Same c second first := by
  cases c <;> cases m <;>
    first | exact Eq.symm same | exact Binary64.Equal.symm same | exact ⟨same.1.symm, same.2.symm⟩

theorem trans {first second third : m.Content} (same : m.Same c first second)
    (same' : m.Same c second third) : m.Same c first third := by
  cases c <;> cases m <;>
    first
      | exact Eq.trans same same'
      | exact Binary64.Equal.trans same same'
      | exact ⟨same.1.trans same'.1, same.2.trans same'.2⟩

end Member.Same

/-- Settings with the same parts as valid ones are valid. -/
theorem validate_of_same (same : ∀ m : Member, m.Same c (m.view s) (m.view s'))
    (valid : s.validate = .ok ()) : s'.validate = .ok () := by
  cases c with
  | exact => exact ext_view same ▸ valid
  | numeric =>
    have version : s.version = s'.version := same .version
    have width : s.width = s'.width := same .width
    have height : s.height = s'.height := same .height
    have quality : s.quality = s'.quality := same .quality
    have meshCount : s.meshCount = s'.meshCount := same .meshCount
    obtain ⟨hueMin, hueMax⟩ : Equal s.hue.min s'.hue.min ∧ Equal s.hue.max s'.hue.max := same .hue
    obtain ⟨lightnessMin, lightnessMax⟩ :
      Equal s.lightness.min s'.lightness.min ∧ Equal s.lightness.max s'.lightness.max :=
      same .lightness
    rw [validate_eq_ok_iff, version, width, height, quality] at valid
    obtain ⟨checkedVersion, sides, samples, style⟩ := valid
    refine validate_eq_ok_iff.mpr ⟨checkedVersion, sides, samples, ?_⟩
    simp only [Style.validate, Outcome.check_bind_eq_ok_iff, Settings.style] at style ⊢
    obtain ⟨hueLow, hueHigh, lightnessLow, lightnessHigh, saturation, meshSaturation, mesh, done⟩ :=
      style
    rw [meshCount] at mesh
    exact ⟨Style.checkComponent_of_equal hueMin hueLow,
      Style.checkComponent_of_equal hueMax hueHigh,
      Style.checkComponent_of_equal lightnessMin lightnessLow,
      Style.checkComponent_of_equal lightnessMax lightnessHigh,
      Style.checkComponent_of_equal (same .saturation) saturation,
      Style.checkComponent_of_equal (same .meshSaturation) meshSaturation,
      Style.checkMesh_of_equal (same .meshThickness) mesh, done⟩

/-- Members in another arrangement: in another order, with members of other names added, and with a
member left out or written out that holds what is standard. -/
inductive Rearranged (c : Comparison) : List (Json × Json) → List (Json × Json) → Prop where
  | permuted {members members' : List (Json × Json)} (permutation : members.Perm members') :
      Rearranged c members members'
  | added {chars : List Char} (unknown : ∀ m : Member, chars ≠ m.name.toList) (value : Json)
      (members : List (Json × Json)) : Rearranged c members ((.string chars, value) :: members)
  | leftOut {m : Member} {value : Json} {content : m.Content}
      (decoded : m.decode value = .ok content) (isStandard : m.Same c content (m.view standard))
      (members : List (Json × Json)) :
      Rearranged c ((.text m.name, value) :: members) members
  | writtenOut {m : Member} {value : Json} {content : m.Content} {members : List (Json × Json)}
      (missing : ∀ other, (.text m.name, other) ∉ members) (decoded : m.decode value = .ok content)
      (isStandard : m.Same c content (m.view standard)) :
      Rearranged c members ((.text m.name, value) :: members)
  | trans {members between members' : List (Json × Json)} (first : Rearranged c members between)
      (second : Rearranged c between members') : Rearranged c members members'

variable {members members' : List (Json × Json)}

/-- Members of names that settings do not have can be skipped. -/
def Skippable (members : List (Json × Json)) : Prop :=
  ∀ member ∈ members, (∀ m : Member, member.1 ≠ .text m.name) → member.2.isPassable = true

theorem Rearranged.skippable (rearranged : Rearranged c members members')
    (skippable : Skippable members') : Skippable members := by
  induction rearranged with
  | permuted permutation =>
    exact fun member isMember => skippable member (permutation.mem_iff.mp isMember)
  | added => exact (List.forall_mem_cons.mp skippable).2
  | @leftOut m =>
    exact List.forall_mem_cons.mpr ⟨fun unknown => absurd rfl (unknown m), skippable⟩
  | writtenOut => exact (List.forall_mem_cons.mp skippable).2
  | trans _ _ first second => exact first (second skippable)

theorem mem_fields (m : Member) : m.field ∈ record.fields :=
  mem_fields_iff.mpr ⟨m, rfl⟩

/-- No member has to be there, so an object has the form of settings if they may have its
members. -/
theorem decode_object_eq_ok_iff : decode (.object members true) = .ok s ↔
    record.MayHave members ∧ s.ComesFrom (.object members true) := by
  rw [decode_eq_ok_iff]
  refine and_congr_left fun _ => ⟨fun form => ?_, fun mayHave => .object mayHave ?_⟩
  · cases form with
    | object mayHave => exact mayHave
  · intro field isField required
    obtain ⟨m, rfl⟩ := mem_fields_iff.mp isField
    cases required

/-- Settings come from other members if these give the same values to their parts. -/
theorem ComesFrom.congr
    (same : ∀ (m : Member) value,
      (.text m.name, value) ∈ members' ↔ (.text m.name, value) ∈ members)
    (comesFrom : s.ComesFrom (.object members true)) : s.ComesFrom (.object members' true) :=
  fun m => (comesFrom m).congr (same m)

/-- A part changes with the value that is given to it, if the other parts are given the same. -/
theorem ComesFrom.put {content : m.Content}
    (same : ∀ other : Member, other ≠ m → ∀ value,
      (.text other.name, value) ∈ members' ↔ (.text other.name, value) ∈ members)
    (settles : Json.Settles (fun value => (.text m.name, value) ∈ members') (m.view standard)
      m.decode content)
    (comesFrom : s.ComesFrom (.object members true)) :
    (m.put content s).ComesFrom (.object members' true) := by
  intro other
  by_cases here : other = m
  · subst here
    rw [Member.view_put]
    exact settles
  · rw [Member.view_put_of_ne (Ne.symm here)]
    exact (comesFrom other).congr (same other here)

/-- Only the part that is put in its place has to be compared. -/
theorem Member.Same.put {content : m.Content} (valid : s.validate = .ok ())
    (same : m.Same c (m.view s) content) (other : Member) :
    other.Same c (other.view s) (other.view (m.put content s)) := by
  by_cases here : other = m
  · subst here
    rwa [Member.view_put]
  · rw [Member.view_put_of_ne (Ne.symm here)]
    exact .of_valid valid c other

theorem mem_cons_of_ne {other : Member} (different : other ≠ m) (given value : Json) :
    (.text other.name, value) ∈ (.text m.name, given) :: members ↔
      (.text other.name, value) ∈ members := by
  rw [List.mem_cons, or_iff_right]
  intro same
  exact different (Member.name_inj.mp (Json.text_inj.mp (Prod.mk.inj same).1))

/-- Valid settings that are decoded from members are decoded from the members in another
arrangement too. -/
theorem Rearranged.decode (rearranged : Rearranged c members members')
    (skippable : Skippable members') (decoded : decode (.object members true) = .ok s)
    (valid : s.validate = .ok ()) :
    ∃ s', Settings.decode (.object members' true) = .ok s' ∧ s'.validate = .ok () ∧
      ∀ m : Member, m.Same c (m.view s) (m.view s') := by
  induction rearranged generalizing s with
  | permuted permutation =>
    obtain ⟨mayHave, comesFrom⟩ := decode_object_eq_ok_iff.mp decoded
    refine ⟨s, decode_object_eq_ok_iff.mpr ⟨mayHave.permuted permutation, comesFrom.congr ?_⟩,
      valid, .of_valid valid c⟩
    exact fun m value => permutation.symm.mem_iff
  | @added chars unknown value members =>
    obtain ⟨mayHave, comesFrom⟩ := decode_object_eq_ok_iff.mp decoded
    have noMember : ∀ m : Member, .string chars ≠ Json.text m.name := fun m same =>
      unknown m (Json.string.inj same)
    have noField : ∀ field ∈ record.fields, .string chars ≠ Json.text field.name := by
      intro field isField
      obtain ⟨m, rfl⟩ := mem_fields_iff.mp isField
      exact noMember m
    have passable := skippable _ List.mem_cons_self noMember
    refine ⟨s, decode_object_eq_ok_iff.mpr ⟨mayHave.skip noField passable, comesFrom.congr ?_⟩,
      valid, .of_valid valid c⟩
    intro m part
    rw [List.mem_cons, or_iff_right]
    exact fun same => noMember m (Prod.mk.inj same).1.symm
  | @leftOut m value content contentDecoded isStandard members =>
    obtain ⟨mayHave, comesFrom⟩ := decode_object_eq_ok_iff.mp decoded
    have held : m.view s = content :=
      Except.ok.inj (((comesFrom m).1 value List.mem_cons_self).symm.trans contentDecoded)
    have same := Member.Same.put valid (held ▸ isStandard)
    refine ⟨m.put (m.view standard) s, decode_object_eq_ok_iff.mpr ⟨mayHave.tail, ?_⟩,
      validate_of_same same valid, same⟩
    refine comesFrom.put (fun other different part => (mem_cons_of_ne different value part).symm) ?_
    have missing := mayHave.missing (mem_fields m)
    exact ⟨fun part given => absurd given (missing part), fun _ => rfl⟩
  | @writtenOut m value content members missing contentDecoded isStandard =>
    obtain ⟨mayHave, comesFrom⟩ := decode_object_eq_ok_iff.mp decoded
    have held : m.view s = m.view standard := (comesFrom m).2 missing
    have same := Member.Same.put valid (held ▸ isStandard.symm)
    refine ⟨m.put content s,
      decode_object_eq_ok_iff.mpr ⟨mayHave.insert (mem_fields m) missing, ?_⟩,
      validate_of_same same valid, same⟩
    refine comesFrom.put (fun other different part => mem_cons_of_ne different value part) ?_
    refine ⟨fun part given => ?_, fun none => absurd List.mem_cons_self (none value)⟩
    rcases List.mem_cons.mp given with here | again
    · cases here
      exact contentDecoded
    · exact absurd again (missing part)
  | trans _ later first second =>
    obtain ⟨between, betweenDecoded, betweenValid, same⟩ :=
      first (later.skippable skippable) decoded valid
    obtain ⟨s', decoded', valid', same'⟩ := second skippable betweenDecoded betweenValid
    exact ⟨s', decoded', valid', fun m => (same m).trans (same' m)⟩

end Settings
end DomainColoring
