import DomainColoring.Area
import DomainColoring.Proofs.Json.Record
import DomainColoring.Proofs.Settings.Text

/-!
# Areas and segments in texts

A segment that can be made is read back from its text, in either layout. An area is so only if its
corners are finite: an infinite part, which the corners of an area may have, is written as `null`,
and no other text stands for it either. Whatever text an area or a segment is decoded from, its
corners or bounds are such as it can be made of. That the digits of a finite number are rounded to
the number again is assumed of each number.
-/

namespace DomainColoring

namespace Json

variable {x y : Float}

/-- What the text of a number is read to. -/
def printed (x : Float) : Json :=
  if x.isFinite then .real x else .null

theorem scalarText_printed (x : Float) : scalarText (printed x) = scalarText (.real x) := by
  unfold printed
  split
  · rfl
  · next exceptional =>
    rw [scalarText, Decimal.Layout.chars]
    by_cases nan : x.isNaN = true
    · rw [if_pos nan]
      rfl
    · have infinite : x.isInf = true :=
        (Binary64.isNaN_or_isInf (Bool.eq_false_iff.mpr exceptional)).resolve_left nan
      rw [if_neg nan, if_pos infinite]
      rfl

theorem compactText_printed (x : Float) : compactText (printed x) = compactText (.real x) := by
  refine Eq.trans ?_ (scalarText_printed x)
  unfold printed
  split <;> rfl

theorem indentedText_printed (level : Nat) (x : Float) :
    indentedText level (printed x) = indentedText level (.real x) := by
  refine Eq.trans ?_ (scalarText_printed x)
  unfold printed
  split <;> rfl

theorem readsBack_printed (rereads : x.isFinite = true → Rereads x) : ReadsBack (printed x) := by
  unfold printed
  split
  · next finite => exact .real finite (rereads finite)
  · exact .null

theorem decodeReal_printed : decodeReal (printed x) = .ok y ↔ x.isFinite = true ∧ y = x := by
  unfold printed
  split
  · next finite => simp [decodeReal, finite, eq_comm]
  · next exceptional => simp [decodeReal, mismatch, exceptional]

end Json

namespace Area

variable {a b : Area} {value : Json}

/-- The numbers in an area. -/
def numbers (a : Area) : List Float :=
  [a.leftBottom.re, a.leftBottom.im, a.rightTop.re, a.rightTop.im]

/-- What the text of an area is read to. -/
def printed (a : Area) : Json :=
  .record [("left_bottom", .list [.printed a.leftBottom.re, .printed a.leftBottom.im]),
    ("right_top", .list [.printed a.rightTop.re, .printed a.rightTop.im])]

theorem compactText_toJson (a : Area) : a.toJson.compactText = a.printed.compactText := by
  simp [toJson, printed, Json.record, Json.list, Json.compactText, Json.compactMembers,
    Json.compactItems, Json.compactText_printed]

theorem indentedText_toJson (a : Area) (level : Nat) :
    a.toJson.indentedText level = a.printed.indentedText level := by
  simp [toJson, printed, Json.record, Json.list, Json.indentedText, Json.indentedMembers,
    Json.indentedItems, Json.indentedText_printed]

theorem isSound_printed (rereads : ∀ x ∈ a.numbers, x.isFinite = true → Json.Rereads x) :
    Json.IsSound a.printed := by
  simp only [numbers, List.forall_mem_cons] at rereads
  obtain ⟨left, bottom, right, top, -⟩ := rereads
  have corner {x y : Float} (xReads : Json.ReadsBack (.printed x))
      (yReads : Json.ReadsBack (.printed y)) : Json.IsSound (.list [.printed x, .printed y]) :=
    .array (by
      simp only [List.forall_mem_cons]
      exact ⟨.scalar xReads, .scalar yReads, nofun⟩)
  refine Json.isSound_record ?_
  simp only [List.forall_mem_cons]
  exact ⟨corner (Json.readsBack_printed left) (Json.readsBack_printed bottom),
    corner (Json.readsBack_printed right) (Json.readsBack_printed top), nofun⟩

/-- The text of an area, in either layout, is read to the area with `null` for what is not
finite. -/
theorem read_texts (rereads : ∀ x ∈ a.numbers, x.isFinite = true → Json.Rereads x) :
    ∀ text ∈ [a.toJson.compactText, a.toJson.indentedText 0],
      Json.read text = (a.printed, true) := by
  have sound := isSound_printed rereads
  rw [compactText_toJson, indentedText_toJson]
  simp only [List.forall_mem_cons]
  exact ⟨Json.read_compact sound, Json.read_indented sound, nofun⟩

theorem decodeCorner_list (first second : Json) :
    decodeCorner (.list [first, second]) = (do
      let re ← Json.decodeReal first
      let im ← Json.decodeReal second
      return ⟨re, im⟩) := by
  cases re : Json.decodeReal first <;> cases im : Json.decodeReal second <;>
    simp [decodeCorner, Json.list, Json.Record.decode, parts, Json.Record.setInOrder, re, im] <;>
    rfl

theorem decode_record (first second : Json) :
    corners.decode (.record [("left_bottom", first), ("right_top", second)]) = (do
      let leftBottom ← decodeCorner first
      let rightTop ← decodeCorner second
      return (leftBottom, rightTop)) := by
  cases leftBottom : decodeCorner first <;> cases rightTop : decodeCorner second <;>
    simp [corners, Json.record, Json.text, Json.Record.decode, Json.Record.setByName, leftBottom,
      rightTop, bind, Except.bind, pure, Except.pure]

theorem decodeCorner_printed {x y : Float} {z : ComplexNumber} :
    decodeCorner (.list [.printed x, .printed y]) = .ok z ↔
      x.isFinite = true ∧ y.isFinite = true ∧ z = ⟨x, y⟩ := by
  rw [decodeCorner_list]
  constructor
  · intro decoded
    obtain ⟨re, reDecoded, others⟩ := Outcome.bind_eq_ok_iff.mp decoded
    obtain ⟨im, imDecoded, whole⟩ := Outcome.bind_eq_ok_iff.mp others
    cases whole
    obtain ⟨xFinite, rfl⟩ := Json.decodeReal_printed.mp reDecoded
    obtain ⟨yFinite, rfl⟩ := Json.decodeReal_printed.mp imDecoded
    exact ⟨xFinite, yFinite, rfl⟩
  · rintro ⟨xFinite, yFinite, rfl⟩
    exact Outcome.bind_eq_ok_iff.mpr ⟨x, Json.decodeReal_printed.mpr ⟨xFinite, rfl⟩,
      Outcome.bind_eq_ok_iff.mpr ⟨y, Json.decodeReal_printed.mpr ⟨yFinite, rfl⟩, rfl⟩⟩

theorem eq_of_make {leftBottom rightTop : ComplexNumber} (made : make leftBottom rightTop = .ok a) :
    a = ⟨leftBottom, rightTop⟩ := by
  unfold make at made
  split at made
  · cases made
    rfl
  · cases made

theorem make_corners {leftBottom rightTop : ComplexNumber}
    (made : make leftBottom rightTop = .ok a) : make a.leftBottom a.rightTop = .ok a := by
  obtain rfl := eq_of_make made
  exact made

/-- An area is decoded from a value if it can be made of the corners that are. -/
theorem decode_eq_ok_iff : decode value = .ok a ↔
    corners.decode value = .ok (a.leftBottom, a.rightTop) ∧
      make a.leftBottom a.rightTop = .ok a := by
  rw [decode, Outcome.bind_eq_ok_iff]
  constructor
  · rintro ⟨⟨leftBottom, rightTop⟩, decoded, made⟩
    have made := Outcome.mapError_eq_ok_iff.mp made
    obtain rfl := eq_of_make made
    exact ⟨decoded, made⟩
  · rintro ⟨decoded, made⟩
    exact ⟨_, decoded, Outcome.mapError_eq_ok_iff.mpr made⟩

/-- From what its text is read to, an area is decoded unless a number was lost on the way. -/
theorem decode_printed (made : make a.leftBottom a.rightTop = .ok a) :
    decode a.printed = .ok b ↔ (∀ x ∈ a.numbers, x.isFinite = true) ∧ b = a := by
  rw [decode_eq_ok_iff, printed, decode_record]
  simp only [numbers, List.forall_mem_cons]
  constructor
  · rintro ⟨decoded, -⟩
    obtain ⟨leftBottom, firstDecoded, decoded⟩ := Outcome.bind_eq_ok_iff.mp decoded
    obtain ⟨rightTop, secondDecoded, decoded⟩ := Outcome.bind_eq_ok_iff.mp decoded
    obtain ⟨left, bottom, rfl⟩ := decodeCorner_printed.mp firstDecoded
    obtain ⟨right, top, rfl⟩ := decodeCorner_printed.mp secondDecoded
    obtain ⟨⟩ := b
    cases decoded
    exact ⟨⟨left, bottom, right, top, nofun⟩, rfl⟩
  · rintro ⟨⟨left, bottom, right, top, -⟩, rfl⟩
    exact ⟨Outcome.bind_eq_ok_iff.mpr ⟨_, decodeCorner_printed.mpr ⟨left, bottom, rfl⟩,
      Outcome.bind_eq_ok_iff.mpr ⟨_, decodeCorner_printed.mpr ⟨right, top, rfl⟩, rfl⟩⟩, made⟩

/-- From its text, in either layout, an area is decoded if its numbers are finite, and none is if
they are not. -/
theorem decodeText_texts (made : make a.leftBottom a.rightTop = .ok a)
    (rereads : ∀ x ∈ a.numbers, x.isFinite = true → Json.Rereads x) {text : List Char}
    (isText : text ∈ [a.toJson.compactText, a.toJson.indentedText 0]) :
    Json.decodeText decode text = .ok b ↔ (∀ x ∈ a.numbers, x.isFinite = true) ∧ b = a :=
  (Json.decodeText_of_read (read_texts rereads text isText)).trans (decode_printed made)

theorem isFinite_of_decodeCorner {z : ComplexNumber} (complete : value.IsComplete)
    (decoded : decodeCorner value = .ok z) : z.re.isFinite = true ∧ z.im.isFinite = true := by
  unfold decodeCorner at decoded
  split at decoded
  · refine parts.decode_keeps (fun z => z.re.isFinite = true ∧ z.im.isFinite = true) (by decide)
      complete ?_ (by decide) decoded
    simp only [parts, List.forall_mem_cons]
    refine ⟨fun part isComplete before after set finite => ?_,
      fun part isComplete before after set finite => ?_, nofun⟩
    · obtain ⟨re, decoded, rfl⟩ := Outcome.bind_pure_eq_ok_iff.mp set
      exact ⟨isComplete.isFinite_of_decodeReal decoded, finite.2⟩
    · obtain ⟨im, decoded, rfl⟩ := Outcome.bind_pure_eq_ok_iff.mp set
      exact ⟨finite.1, isComplete.isFinite_of_decodeReal decoded⟩
  · cases complete <;> cases decoded

/-- No complete value holds an area with an infinite corner. -/
theorem isFinite_of_decode (complete : value.IsComplete) (decoded : decode value = .ok a) :
    ∀ x ∈ a.numbers, x.isFinite = true := by
  let bothFinite (both : ComplexNumber × ComplexNumber) : Prop :=
    (both.1.re.isFinite = true ∧ both.1.im.isFinite = true) ∧
      both.2.re.isFinite = true ∧ both.2.im.isFinite = true
  have each : ∀ field ∈ corners.fields, ∀ part, part.IsComplete → ∀ before after,
      field.set part before = .ok after → bothFinite before → bothFinite after := by
    simp only [corners, List.forall_mem_cons]
    refine ⟨fun part isComplete before after set finite => ?_,
      fun part isComplete before after set finite => ?_, nofun⟩
    · obtain ⟨leftBottom, decoded, rfl⟩ := Outcome.bind_pure_eq_ok_iff.mp set
      exact ⟨isFinite_of_decodeCorner isComplete decoded, finite.2⟩
    · obtain ⟨rightTop, decoded, rfl⟩ := Outcome.bind_pure_eq_ok_iff.mp set
      exact ⟨finite.1, isFinite_of_decodeCorner isComplete decoded⟩
  have zeros : bothFinite corners.start := by decide
  obtain ⟨⟨left, bottom⟩, right, top⟩ :=
    corners.decode_keeps bothFinite (by decide) complete each zeros (decode_eq_ok_iff.mp decoded).1
  simp only [numbers, List.forall_mem_cons]
  exact ⟨left, bottom, right, top, nofun⟩

end Area

theorem Segment.eq_of_make {s : Segment} {min max : Float} (made : make min max = .ok s) :
    s = ⟨min, max⟩ ∧ s.IsProper := by
  unfold make at made
  split at made
  · next valid =>
    cases made
    exact ⟨rfl, valid⟩
  · cases made

/-- The bounds of a segment are finite, so that none is written as `null`. -/
theorem Segment.read_texts {s : Segment} (proper : s.IsProper) (min : Json.Rereads s.min)
    (max : Json.Rereads s.max) :
    ∀ text ∈ [s.toJson.compactText, s.toJson.indentedText 0],
      Json.read text = (s.toJson, true) := by
  rw [IsProper, isValid, Bool.and_eq_true, Bool.and_eq_true] at proper
  obtain ⟨⟨minFinite, maxFinite⟩, -⟩ := proper
  have sound := isSound_toJson (.real minFinite min) (.real maxFinite max)
  simp only [List.forall_mem_cons]
  exact ⟨Json.read_compact sound, Json.read_indented sound, nofun⟩

theorem Segment.make_of_decode {s : Segment} {value : Json} (decoded : decode value = .ok s) :
    make s.min s.max = .ok s := by
  obtain ⟨⟨min, max⟩, -, made⟩ := Outcome.bind_eq_ok_iff.mp decoded
  exact if_pos (eq_of_make (Outcome.mapError_eq_ok_iff.mp made)).2

/-- From the text of an area that can be made, compact or indented, the area is decoded exactly if
its numbers are finite, and from no text at all an area with a number that is not. From the text of
a segment that can be made, the segment is decoded in any case. Whatever is decoded from a text, an
area or a segment, it can be made. -/
theorem decodeText_areas_and_segments (text : List Char) :
    (∀ leftBottom rightTop a, Area.make leftBottom rightTop = .ok a →
      (∀ x ∈ a.numbers, x.isFinite = true → Json.Rereads x) →
      text ∈ [a.toJson.compactText, a.toJson.indentedText 0] → ∀ b,
        Json.decodeText Area.decode text = .ok b ↔ (∀ x ∈ a.numbers, x.isFinite = true) ∧ b = a) ∧
    (∀ min max s, Segment.make min max = .ok s → Json.Rereads s.min → Json.Rereads s.max →
      text ∈ [s.toJson.compactText, s.toJson.indentedText 0] →
        Json.decodeText Segment.decode text = .ok s) ∧
    (∀ a, Json.decodeText Area.decode text = .ok a →
      Area.make a.leftBottom a.rightTop = .ok a ∧ ∀ x ∈ a.numbers, x.isFinite = true) ∧
    ∀ s, Json.decodeText Segment.decode text = .ok s → Segment.make s.min s.max = .ok s := by
  refine ⟨fun leftBottom rightTop a made rereads isText b => ?_,
    fun min max s made minReads maxReads isText => ?_, fun a decoded => ?_,
    fun s decoded => ?_⟩
  · exact Area.decodeText_texts (Area.make_corners made) rereads isText
  · obtain ⟨-, proper⟩ := Segment.eq_of_make made
    exact (Json.decodeText_of_read (Segment.read_texts proper minReads maxReads text isText)).mpr
      (Segment.decode_toJson proper)
  · obtain ⟨value, read, decoded⟩ := Json.decodeText_eq_ok_iff.mp decoded
    exact ⟨(Area.decode_eq_ok_iff.mp decoded).2,
      Area.isFinite_of_decode (Json.isComplete_of_read read) decoded⟩
  · obtain ⟨value, -, decoded⟩ := Json.decodeText_eq_ok_iff.mp decoded
    exact Segment.make_of_decode decoded

/-- A rectangle and an interval with finite corners and bounds. -/
theorem decodeText_rectangle_and_interval :
    let a : Area := ⟨⟨-1.5, -0.0⟩, ⟨1e5, 0.1⟩⟩
    let s : Segment := ⟨0.05, 0.95⟩
    Area.make ⟨-1.5, -0.0⟩ ⟨1e5, 0.1⟩ = .ok a ∧
    (∀ x ∈ a.numbers, x.isFinite = true ∧ Json.Rereads x) ∧
    Segment.make 0.05 0.95 = .ok s ∧ Json.Rereads s.min ∧ Json.Rereads s.max ∧
    Json.decodeText Area.decode a.toJson.compactText = .ok a ∧
    Json.decodeText Area.decode (a.toJson.indentedText 0) = .ok a ∧
    Json.decodeText Segment.decode s.toJson.compactText = .ok s ∧
    Json.decodeText Segment.decode (s.toJson.indentedText 0) = .ok s := by
  intro a s
  have area : Area.make ⟨-1.5, -0.0⟩ ⟨1e5, 0.1⟩ = .ok a := if_pos (by decide)
  have segment : Segment.make 0.05 0.95 = .ok s := if_pos (by decide)
  have numbers : ∀ x ∈ a.numbers, x.isFinite = true ∧ Json.Rereads x := by decide +kernel
  have min : Json.Rereads s.min := by decide +kernel
  have max : Json.Rereads s.max := by decide +kernel
  have finite : ∀ x ∈ a.numbers, x.isFinite = true := fun x isNumber => (numbers x isNumber).1
  have areaRead (text : List Char)
      (isText : text ∈ [a.toJson.compactText, a.toJson.indentedText 0]) :
      Json.decodeText Area.decode text = .ok a := by
    obtain ⟨areas, -⟩ := decodeText_areas_and_segments text
    exact (areas _ _ a area (fun x isNumber _ => (numbers x isNumber).2) isText a).mpr ⟨finite, rfl⟩
  have segmentRead (text : List Char)
      (isText : text ∈ [s.toJson.compactText, s.toJson.indentedText 0]) :
      Json.decodeText Segment.decode text = .ok s := by
    obtain ⟨-, segments, -⟩ := decodeText_areas_and_segments text
    exact segments _ _ s segment min max isText
  exact ⟨area, numbers, segment, min, max, areaRead _ List.mem_cons_self,
    areaRead _ (List.mem_cons_of_mem _ List.mem_cons_self), segmentRead _ List.mem_cons_self,
    segmentRead _ (List.mem_cons_of_mem _ List.mem_cons_self)⟩

/-- A strip without left and right end is an area, but what is written of it cannot be decoded. -/
theorem decodeText_strip :
    let a : Area := ⟨⟨-Binary64.infinity, 0.0⟩, ⟨Binary64.infinity, 1.0⟩⟩
    Area.make ⟨-Binary64.infinity, 0.0⟩ ⟨Binary64.infinity, 1.0⟩ = .ok a ∧
    (∀ x ∈ a.numbers, x.isFinite = true → Json.Rereads x) ∧
    a.toJson.compactText =
      "\x7b\"left_bottom\":[null,0.0],\"right_top\":[null,1.0]\x7d".toList ∧
    (∀ b, Json.decodeText Area.decode a.toJson.compactText ≠ .ok b) := by
  intro a
  have made : Area.make ⟨-Binary64.infinity, 0.0⟩ ⟨Binary64.infinity, 1.0⟩ = .ok a :=
    if_pos (by decide)
  have rereads : ∀ x ∈ a.numbers, x.isFinite = true → Json.Rereads x := by decide +kernel
  refine ⟨made, rereads, by decide +kernel, fun b decoded => ?_⟩
  have finite :=
    ((Area.decodeText_texts (Area.make_corners made) rereads List.mem_cons_self).mp decoded).1
  exact absurd (finite _ List.mem_cons_self) (by decide)

end DomainColoring
