import DomainColoring.Proofs.Json.Complete
import DomainColoring.Proofs.Json.Decoder

/-!
# What a record is decoded to

Of a value only two things matter to a record that is decoded from it: whether it has the form of
the record, and which value it gives to each field. In what order members stand, and which members
there are besides, makes no difference. The part of the record that a field stands for is decoded
from the value that is given to the field, and is what it was before if none is.
-/

namespace DomainColoring.Json

variable {Value Part : Type} {r : Record Value} {name : String}
  {decode : Json → Except DecodeError Part} {view : Value → Part}

namespace Record

/-- The value that an object has under a name, or an array in the place of the field. -/
def Gives (r : Record Value) : Json → String → Json → Prop
  | .object members _, name, value => (text name, value) ∈ members
  | .array items _, name, value => (name, value) ∈ (r.fields.map (·.name)).zip items
  | _, _, _ => False

/-- The members of an object may be those of a record: their names are strings, no two of them name
the same field, and what names no field can be skipped. -/
structure MayHave (r : Record Value) (members : List (Json × Json)) : Prop where
  named : ∀ member ∈ members, ∃ name, member.1 = .string name
  distinct : members.Pairwise fun first second =>
    ∀ field ∈ r.fields, first.1 = text field.name → second.1 ≠ text field.name
  skipped : ∀ member ∈ members, (∀ field ∈ r.fields, member.1 ≠ text field.name) →
    member.2.isPassable = true

/-- A value has the form of a record, whatever it gives to the fields. -/
inductive HasForm (r : Record Value) : Json → Prop where
  | object {members : List (Json × Json)} (mayHave : r.MayHave members)
      (whole : ∀ field ∈ r.fields, field.required = true →
        ∃ value, r.Gives (.object members true) field.name value) :
      HasForm r (.object members true)
  | array {items : List Json} (few : items.length ≤ r.fields.length)
      (whole : r.mayEndEarly = true ∨ items.length = r.fields.length) :
      HasForm r (.array items true)

/-- A part of a record that the field of a name sets and no other. -/
structure IsPart (r : Record Value) (name : String) (decode : Json → Except DecodeError Part)
    (view : Value → Part) : Prop where
  sets : ∀ field ∈ r.fields, field.name = name → ∀ value before after,
    field.set value before = .ok after → decode value = .ok (view after)
  keeps : ∀ field ∈ r.fields, field.name ≠ name → ∀ value before after,
    field.set value before = .ok after → view after = view before

end Record

/-- A part is decoded from the value that is given to it, or else is the default. -/
def Settles (given : Json → Prop) (default : Part) (decode : Json → Except DecodeError Part)
    (part : Part) : Prop :=
  (∀ value, given value → decode value = .ok part) ∧ ((∀ value, ¬ given value) → part = default)

variable {value : Json} {fields : List (Field Value)} {known : List (String × Json)}
  {members : List (Json × Json)} {items : List Json} {seen seen' : List String}
  {start finish record : Value} {part : Json}

theorem Settles.congr {given given' : Json → Prop} {default part : Part}
    (same : ∀ value, given' value ↔ given value) (settles : Settles given default decode part) :
    Settles given' default decode part :=
  ⟨fun value gives => settles.1 value ((same value).mp gives),
    fun none => settles.2 fun value gives => none value ((same value).mpr gives)⟩

/-- There is at most one part that settles so. -/
theorem Settles.unique {given : Json → Prop} {default part part' : Part}
    (settles : Settles given default decode part) (settles' : Settles given default decode part') :
    part = part' := by
  by_cases some : ∃ value, given value
  · obtain ⟨value, gives⟩ := some
    exact Except.ok.inj ((settles.1 value gives).symm.trans (settles'.1 value gives))
  · have none : ∀ value, ¬ given value := fun value gives => some ⟨value, gives⟩
    exact (settles.2 none).trans (settles'.2 none).symm

/-! ## Members that may be rearranged -/

theorem text_inj {first second : String} : text first = text second ↔ first = second := by
  rw [text, text, Json.string.injEq, String.toList_inj]

namespace Record.MayHave

variable {members' : List (Json × Json)} {field : Field Value}

theorem permuted (permutation : members.Perm members') (mayHave : r.MayHave members) :
    r.MayHave members' where
  named member isMember := mayHave.named member (permutation.mem_iff.mpr isMember)
  distinct := by
    refine permutation.pairwise mayHave.distinct ?_
    exact fun different field isField same again => different field isField again same
  skipped member isMember := mayHave.skipped member (permutation.mem_iff.mpr isMember)

theorem tail {member : Json × Json} (mayHave : r.MayHave (member :: members)) :
    r.MayHave members where
  named := (List.forall_mem_cons.mp mayHave.named).2
  distinct := (List.pairwise_cons.mp mayHave.distinct).2
  skipped := (List.forall_mem_cons.mp mayHave.skipped).2

theorem skip {chars : List Char} (unknown : ∀ field ∈ r.fields, .string chars ≠ text field.name)
    (passable : value.isPassable = true) (mayHave : r.MayHave members) :
    r.MayHave ((.string chars, value) :: members) where
  named := List.forall_mem_cons.mpr ⟨⟨chars, rfl⟩, mayHave.named⟩
  distinct := by
    refine List.pairwise_cons.mpr ⟨fun other _ field isField same => ?_, mayHave.distinct⟩
    exact absurd same (unknown field isField)
  skipped := List.forall_mem_cons.mpr ⟨fun _ => passable, mayHave.skipped⟩

theorem insert (isField : field ∈ r.fields)
    (missing : ∀ other, (text field.name, other) ∉ members) (mayHave : r.MayHave members) :
    r.MayHave ((text field.name, value) :: members) where
  named := List.forall_mem_cons.mpr ⟨⟨_, rfl⟩, mayHave.named⟩
  distinct := by
    refine List.pairwise_cons.mpr ⟨fun other isOther known _ same again => ?_, mayHave.distinct⟩
    obtain ⟨key, part⟩ := other
    obtain rfl : key = text field.name := again.trans same.symm
    exact missing part isOther
  skipped := by
    refine List.forall_mem_cons.mpr ⟨fun unknown => ?_, mayHave.skipped⟩
    exact absurd rfl (unknown field isField)

/-- Behind a member that names a field, no other names it again. -/
theorem missing (isField : field ∈ r.fields)
    (mayHave : r.MayHave ((text field.name, value) :: members)) (other : Json) :
    (text field.name, other) ∉ members := fun again =>
  (List.pairwise_cons.mp mayHave.distinct).1 _ again field isField rfl rfl

end Record.MayHave

/-! ## Fields that are set one after another -/

/-- Among fields with different names, a part is decoded from what its own field is set to. -/
theorem Record.IsPart.settles_sets (part : r.IsPart name decode view)
    (sets : Sets fields known start finish) (inRecord : fields ⊆ r.fields)
    (different : (fields.map (·.name)).Nodup) :
    Settles (fun value => (name, value) ∈ known) (view start) decode (view finish) := by
  induction sets with
  | nil record => exact ⟨nofun, fun _ => rfl⟩
  | @cons field fields value members record changed finish first others inductionHypothesis =>
    have isField : field ∈ r.fields := inRecord List.mem_cons_self
    rw [List.map_cons, List.nodup_cons] at different
    have later := inductionHypothesis (List.subset_of_cons_subset inRecord) different.2
    by_cases same : field.name = name
    · subst same
      have nothingLater : ∀ other, (field.name, other) ∉ members := by
        intro other given
        refine different.1 ?_
        rw [← others.names]
        exact List.mem_map_of_mem given
      have kept : view finish = view changed := later.2 nothingLater
      refine ⟨fun other given => ?_, fun none => absurd List.mem_cons_self (none value)⟩
      rcases List.mem_cons.mp given with here | further
      · cases here
        rw [kept]
        exact part.sets field isField rfl _ _ _ first
      · exact absurd further (nothingLater other)
    · have kept : view changed = view record := part.keeps field isField same _ _ _ first
      rw [← kept]
      refine later.congr fun other => ?_
      rw [List.mem_cons, Prod.mk.injEq, or_iff_right]
      exact fun here => same here.1.symm

/-! ## Fields that members name -/

namespace Record

/-- Which fields the members of an object name one after another, if others are named before, and
the values that they give to them. -/
inductive Names (r : Record Value) : List String → List (Json × Json) → List (Field Value) →
    List (String × Json) → Prop where
  | nil (seen : List String) : Names r seen [] [] []
  | skip {seen : List String} {chars : List Char} {value : Json} {members : List (Json × Json)}
      {fields : List (Field Value)} {known : List (String × Json)}
      (unknown : ∀ field ∈ r.fields, field.name.toList ≠ chars) (passable : value.isPassable = true)
      (others : Names r seen members fields known) :
      Names r seen ((.string chars, value) :: members) fields known
  | name {seen : List String} {field : Field Value} {value : Json} {members : List (Json × Json)}
      {fields : List (Field Value)} {known : List (String × Json)} (isField : field ∈ r.fields)
      (unseen : field.name ∉ seen) (others : Names r (field.name :: seen) members fields known) :
      Names r seen ((text field.name, value) :: members) (field :: fields)
        ((field.name, value) :: known)

theorem setByName_skip {chars : List Char}
    (unknown : ∀ field ∈ r.fields, field.name.toList ≠ chars) (passable : value.isPassable = true) :
    r.setByName seen ((.string chars, value) :: members) start =
      r.setByName seen members start := by
  have none : (r.fields.find? fun field => field.name.toList = chars) = none :=
    List.find?_eq_none.mpr fun field isField => by simpa using unknown field isField
  rw [setByName, none]
  exact if_pos passable

theorem setByName_name (different : (r.fields.map (·.name)).Nodup) {field : Field Value}
    (isField : field ∈ r.fields) (unseen : field.name ∉ seen) :
    r.setByName seen ((text field.name, value) :: members) start =
      field.set value start >>= r.setByName (field.name :: seen) members := by
  rw [text, setByName, find?_field different isField]
  exact if_neg unseen

/-- Members set the fields that they name, and nothing else is set. -/
theorem setByName_eq_ok_iff (different : (r.fields.map (·.name)).Nodup) :
    r.setByName seen members start = .ok (finish, seen') ↔
      ∃ fields known, r.Names seen members fields known ∧ Sets fields known start finish ∧
        seen' = (fields.map (·.name)).reverse ++ seen := by
  constructor
  · intro set
    induction members generalizing seen start with
    | nil =>
      cases set
      exact ⟨[], [], .nil _, .nil _, rfl⟩
    | cons member members inductionHypothesis =>
      unfold setByName at set
      split at set
      · next none => cases none
      · next chars value rest same =>
        obtain ⟨rfl, rfl⟩ := List.cons.inj same
        split at set
        · next none =>
          split at set
          · next passable =>
            obtain ⟨fields, known, names, sets, seenSame⟩ := inductionHypothesis set
            have unknown : ∀ field ∈ r.fields, field.name.toList ≠ chars := by
              simpa using none
            exact ⟨fields, known, .skip unknown passable names, sets, seenSame⟩
          · cases set
        · next field found =>
          split at set
          · cases set
          · next unseen =>
            obtain ⟨changed, first, set⟩ := Outcome.bind_eq_ok_iff.mp set
            obtain ⟨fields, known, names, sets, seenSame⟩ := inductionHypothesis set
            have isName : field.name.toList = chars := by simpa using List.find?_some found
            subst isName
            refine ⟨field :: fields, _, .name (List.mem_of_find?_eq_some found) unseen names,
              .cons first sets, ?_⟩
            rw [seenSame, List.map_cons, List.reverse_cons, List.append_assoc,
              List.singleton_append]
      · cases set
  · rintro ⟨fields, known, names, sets, rfl⟩
    induction names generalizing start with
    | nil seen =>
      cases sets
      rfl
    | skip unknown passable others inductionHypothesis =>
      rw [setByName_skip unknown passable]
      exact inductionHypothesis sets
    | @name seen field value members fields known isField unseen others inductionHypothesis =>
      cases sets with
      | cons first sets =>
        rw [setByName_name different isField unseen]
        refine Outcome.bind_eq_ok_iff.mpr ⟨_, first, (inductionHypothesis sets).trans ?_⟩
        rw [List.map_cons, List.reverse_cons, List.append_assoc, List.singleton_append]

namespace Names

theorem subset (names : r.Names seen members fields known) : fields ⊆ r.fields := by
  induction names with
  | nil => exact List.nil_subset _
  | skip _ _ _ inductionHypothesis => exact inductionHypothesis
  | name isField _ _ inductionHypothesis =>
    exact List.cons_subset.mpr ⟨isField, inductionHypothesis⟩

theorem names (names : r.Names seen members fields known) :
    known.map (·.1) = fields.map (·.name) := by
  induction names with
  | nil => rfl
  | skip _ _ _ inductionHypothesis => exact inductionHypothesis
  | name _ _ _ inductionHypothesis => rw [List.map_cons, List.map_cons, inductionHypothesis]

theorem unseen (names : r.Names seen members fields known) :
    ∀ field ∈ fields, field.name ∉ seen := by
  induction names with
  | nil => exact nofun
  | skip _ _ _ inductionHypothesis => exact inductionHypothesis
  | name _ unseen _ inductionHypothesis =>
    refine List.forall_mem_cons.mpr ⟨unseen, fun other isOther before => ?_⟩
    exact inductionHypothesis other isOther (List.mem_cons_of_mem _ before)

theorem nodup (names : r.Names seen members fields known) : (fields.map (·.name)).Nodup := by
  induction names with
  | nil => exact List.nodup_nil
  | skip _ _ _ inductionHypothesis => exact inductionHypothesis
  | @name _ field _ _ _ _ _ _ others inductionHypothesis =>
    refine List.nodup_cons.mpr ⟨fun again => ?_, inductionHypothesis⟩
    obtain ⟨other, isOther, same⟩ := List.mem_map.mp again
    exact others.unseen other isOther (same ▸ List.mem_cons_self)

theorem gives (names : r.Names seen members fields known) {field : Field Value}
    (isField : field ∈ r.fields) (value : Json) :
    (field.name, value) ∈ known ↔ (text field.name, value) ∈ members := by
  induction names with
  | nil => exact iff_of_false nofun nofun
  | skip unknown _ _ inductionHypothesis =>
    rw [List.mem_cons, inductionHypothesis, iff_or_self]
    intro same
    exact absurd (Json.string.inj (Prod.mk.inj same).1) (unknown field isField)
  | name _ _ _ inductionHypothesis =>
    rw [List.mem_cons, List.mem_cons, inductionHypothesis, Prod.mk.injEq, Prod.mk.injEq, text_inj]

theorem mayHave (names : r.Names seen members fields known) : r.MayHave members := by
  induction names with
  | nil => exact ⟨nofun, .nil, nofun⟩
  | skip unknown passable _ inductionHypothesis =>
    refine inductionHypothesis.skip (fun field isField same => ?_) passable
    exact unknown field isField (Json.string.inj same).symm
  | @name _ field value members _ known isField _ others inductionHypothesis =>
    refine inductionHypothesis.insert isField fun other again => ?_
    have given : field.name ∈ known.map (·.1) :=
      List.mem_map_of_mem ((others.gives isField other).mpr again)
    rw [others.names] at given
    obtain ⟨later, isLater, sameName⟩ := List.mem_map.mp given
    exact others.unseen later isLater (sameName ▸ List.mem_cons_self)

end Names

/-- Fields that are set are named by members in their order. -/
theorem names_of_sets (sets : Sets fields known start finish) (inRecord : fields ⊆ r.fields)
    (different : (fields.map (·.name)).Nodup) (unseen : ∀ field ∈ fields, field.name ∉ seen) :
    r.Names seen (known.map fun member => (text member.1, member.2)) fields known := by
  induction sets generalizing seen with
  | nil record => exact .nil seen
  | @cons field fields value known record changed finish first others inductionHypothesis =>
    rw [List.map_cons, List.nodup_cons] at different
    have othersUnseen : ∀ other ∈ fields, other.name ∉ field.name :: seen := by
      intro other isOther before
      rcases List.mem_cons.mp before with same | seenBefore
      · exact different.1 (same ▸ List.mem_map_of_mem isOther)
      · exact unseen other (List.mem_cons_of_mem _ isOther) seenBefore
    exact .name (inRecord List.mem_cons_self) (unseen field List.mem_cons_self)
      (inductionHypothesis (List.subset_of_cons_subset inRecord) different.2 othersUnseen)

/-- Members that a record may have name fields that were not named before. -/
theorem exists_names (mayHave : r.MayHave members)
    (unseen : ∀ field ∈ r.fields, field.name ∈ seen → ∀ value, (text field.name, value) ∉ members) :
    ∃ fields known, r.Names seen members fields known := by
  induction members generalizing seen with
  | nil => exact ⟨[], [], .nil seen⟩
  | cons member members inductionHypothesis =>
    obtain ⟨key, value⟩ := member
    obtain ⟨⟨chars, rfl⟩, -⟩ := List.forall_mem_cons.mp mayHave.named
    have others := mayHave.tail
    by_cases unknown : ∀ field ∈ r.fields, .string chars ≠ text field.name
    · obtain ⟨fields, known, names⟩ := inductionHypothesis others fun field isField before value =>
        fun member => unseen field isField before value (List.mem_cons_of_mem _ member)
      have passable := mayHave.skipped _ List.mem_cons_self unknown
      refine ⟨fields, known, .skip (fun field isField same => ?_) passable names⟩
      exact unknown field isField (congrArg Json.string same.symm)
    · push Not at unknown
      obtain ⟨field, isField, same⟩ := unknown
      rw [same] at unseen mayHave ⊢
      have notSeen : field.name ∉ seen := fun before =>
        unseen field isField before value List.mem_cons_self
      have othersUnseen : ∀ other ∈ r.fields, other.name ∈ field.name :: seen →
          ∀ value, (text other.name, value) ∉ members := by
        intro other isOther before part member
        rcases List.mem_cons.mp before with here | seenBefore
        · exact mayHave.missing isField part (here ▸ member)
        · exact unseen other isOther seenBefore part (List.mem_cons_of_mem _ member)
      obtain ⟨fields, known, names⟩ := inductionHypothesis others othersUnseen
      exact ⟨field :: fields, _, .name isField notSeen names⟩

/-- Items set the fields in their order. -/
theorem setInOrder_eq_ok_iff {closed : Bool} {taken : Nat} :
    r.setInOrder closed taken fields items start = .ok finish ↔
      closed = true ∧ items.length ≤ fields.length ∧
      (r.mayEndEarly = true ∨ items.length = fields.length) ∧
      Sets (fields.take items.length) ((fields.map (·.name)).zip items) start finish := by
  induction fields generalizing taken items start with
  | nil =>
    cases items with
    | nil => cases closed <;> simp [setInOrder, sets_nil_iff]
    | cons item items => simp [setInOrder]
  | cons field fields inductionHypothesis =>
    cases items with
    | nil =>
      cases closed <;> cases early : r.mayEndEarly <;>
        simp [setInOrder, early, sets_nil_iff]
    | cons item items =>
      simp only [setInOrder, Outcome.bind_eq_ok_iff, inductionHypothesis, List.length_cons,
        List.take_succ_cons, List.map_cons, List.zip_cons_cons, sets_cons_iff,
        Nat.add_le_add_iff_right, Nat.add_right_cancel_iff]
      grind

/-! ## Records that are decoded -/

theorem mem_names_iff (names : r.Names [] members fields known) {field : Field Value}
    (isField : field ∈ r.fields) :
    field.name ∈ (fields.map (·.name)).reverse ++ [] ↔
      ∃ value, (text field.name, value) ∈ members := by
  rw [List.append_nil, List.mem_reverse, ← names.names]
  constructor
  · intro isName
    obtain ⟨⟨name, value⟩, given, rfl⟩ := List.mem_map.mp isName
    exact ⟨value, (names.gives isField value).mp given⟩
  · rintro ⟨value, member⟩
    exact List.mem_map_of_mem ((names.gives isField value).mpr member)

/-- An object is decoded if its members are, unless it is open or lacks a field. -/
theorem decode_object_eq_ok_iff (different : (r.fields.map (·.name)).Nodup) {closed : Bool} :
    r.decode (.object members closed) = .ok record ↔ closed = true ∧
      ∃ fields known, r.Names [] members fields known ∧ Sets fields known r.start record ∧
        ∀ field ∈ r.fields, field.required = true →
          ∃ value, (text field.name, value) ∈ members := by
  have whole {fields : List (Field Value)} {known : List (String × Json)}
      (names : r.Names [] members fields known) :
      (r.fields.find? fun field =>
          field.required && field.name ∉ (fields.map (·.name)).reverse ++ []) = none ↔
        ∀ field ∈ r.fields, field.required = true →
          ∃ value, (text field.name, value) ∈ members := by
    rw [List.find?_eq_none]
    refine forall₂_congr fun field isField => ?_
    rw [← mem_names_iff names isField]
    simp
  constructor
  · intro decoded
    obtain ⟨⟨finish, seen⟩, set, decoded⟩ := Outcome.bind_eq_ok_iff.mp decoded
    obtain ⟨fields, known, names, sets, rfl⟩ := (setByName_eq_ok_iff different).mp set
    cases closed with
    | false => cases decoded
    | true =>
      simp only [Bool.not_true, Bool.false_eq_true, if_false] at decoded
      split at decoded
      · cases decoded
      · next none =>
        cases decoded
        exact ⟨rfl, fields, known, names, sets, (whole names).mp none⟩
  · rintro ⟨rfl, fields, known, names, sets, required⟩
    have set := (setByName_eq_ok_iff different).mpr ⟨fields, known, names, sets, rfl⟩
    refine Outcome.bind_eq_ok_iff.mpr ⟨_, set, ?_⟩
    simp only [(whole names).mpr required]
    rfl

theorem decode_array_eq_ok_iff {closed : Bool} :
    r.decode (.array items closed) = .ok record ↔
      closed = true ∧ items.length ≤ r.fields.length ∧
      (r.mayEndEarly = true ∨ items.length = r.fields.length) ∧
      Sets (r.fields.take items.length) ((r.fields.map (·.name)).zip items) r.start record :=
  setInOrder_eq_ok_iff

/-- What is decoded has the form of a record, and comes of setting fields to what it gives to them,
each at most once. -/
theorem sets_of_decode (different : (r.fields.map (·.name)).Nodup)
    (decoded : r.decode value = .ok record) :
    r.HasForm value ∧ ∃ fields known, Sets fields known r.start record ∧ fields ⊆ r.fields ∧
      (fields.map (·.name)).Nodup ∧
      ∀ field ∈ r.fields, ∀ part, (field.name, part) ∈ known ↔ r.Gives value field.name part := by
  cases value with
  | object members closed =>
    obtain ⟨rfl, fields, known, names, sets, whole⟩ :=
      (decode_object_eq_ok_iff different).mp decoded
    exact ⟨.object names.mayHave whole, fields, known, sets, names.subset, names.nodup,
      fun field isField part => names.gives isField part⟩
  | array items closed =>
    obtain ⟨rfl, few, whole, sets⟩ := decode_array_eq_ok_iff.mp decoded
    refine ⟨.array few whole, _, _, sets, List.take_subset _ _, ?_, fun _ _ _ => .rfl⟩
    rw [List.map_take]
    exact different.sublist (List.take_sublist _ _)
  | null | bool | natural | negative | real | string | broken => cases decoded

theorem IsPart.settles (part : r.IsPart name decode view)
    (different : (r.fields.map (·.name)).Nodup) (isField : name ∈ r.fields.map (·.name))
    (decoded : r.decode value = .ok record) :
    Settles (r.Gives value name) (view r.start) decode (view record) := by
  obtain ⟨-, fields, known, sets, inRecord, distinct, gives⟩ := sets_of_decode different decoded
  obtain ⟨field, inFields, rfl⟩ := List.mem_map.mp isField
  refine (part.settles_sets sets inRecord distinct).congr fun other => ?_
  exact (gives field inFields other).symm

theorem Gives.isComplete (gives : r.Gives value name part) (complete : value.IsComplete) :
    part.IsComplete := by
  cases complete with
  | array complete => exact complete part (List.of_mem_zip gives).2
  | object _ values => exact values _ gives
  | null | bool | natural | negative | real | string | passable => exact gives.elim

/-- What each field that is set leaves true is true of a record that is decoded from a complete
value. -/
theorem decode_keeps (Holds : Value → Prop) (different : (r.fields.map (·.name)).Nodup)
    (complete : value.IsComplete)
    (each : ∀ field ∈ r.fields, ∀ part, part.IsComplete → ∀ before after,
      field.set part before = .ok after → Holds before → Holds after)
    (holds : Holds r.start) (decoded : r.decode value = .ok record) : Holds record := by
  obtain ⟨-, fields, known, sets, inRecord, -, gives⟩ := sets_of_decode different decoded
  refine sets.keeps (fun field isField part given => ?_) holds
  have inFields := inRecord isField
  exact each field inFields part (Gives.isComplete ((gives field inFields part).mp given) complete)

/-- A value of the form of a record is decoded if each field can be set to what it gives to it. -/
theorem exists_decode (different : (r.fields.map (·.name)).Nodup) (form : r.HasForm value)
    (settable : ∀ field ∈ r.fields, ∀ part, r.Gives value field.name part → ∀ before, ∃ after,
      field.set part before = .ok after) : ∃ record, r.decode value = .ok record := by
  cases form with
  | @object members mayHave whole =>
    obtain ⟨fields, known, names⟩ := exists_names mayHave
      fun _ _ before => absurd before List.not_mem_nil
    obtain ⟨record, sets⟩ := exists_sets names.names (fun field isField part given =>
      settable field (names.subset isField) part
        ((names.gives (names.subset isField) part).mp given)) r.start
    exact ⟨record, (decode_object_eq_ok_iff different).mpr ⟨rfl, fields, known, names, sets, whole⟩⟩
  | @array items few whole =>
    have names : ((r.fields.map (·.name)).zip items).map (·.1) =
        (r.fields.take items.length).map (·.name) := by
      have few : items.length ≤ (r.fields.map (·.name)).length := by simpa using few
      rw [List.zip_eq_zip_take_min, Nat.min_eq_right few, List.map_fst_zip (by simp), List.map_take]
    obtain ⟨record, sets⟩ := exists_sets names (fun field isField part given =>
      settable field (List.mem_of_mem_take isField) part given) r.start
    exact ⟨record, decode_array_eq_ok_iff.mpr ⟨rfl, few, whole, sets⟩⟩

end Record

/-- A record of members for each field, in their order, is decoded by setting the fields. -/
theorem decode_of_sets (sets : Sets r.fields known r.start finish)
    (different : (r.fields.map (·.name)).Nodup) : r.decode (.record known) = .ok finish := by
  have names := Record.names_of_sets sets (List.Subset.refl _) different
    fun _ _ => List.not_mem_nil
  refine (Record.decode_object_eq_ok_iff different).mpr
    ⟨rfl, _, _, names, sets, fun field isField _ => ?_⟩
  refine (Record.mem_names_iff names isField).mp ?_
  rw [List.append_nil, List.mem_reverse]
  exact List.mem_map_of_mem isField

end DomainColoring.Json
