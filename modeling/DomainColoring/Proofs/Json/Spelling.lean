import DomainColoring.Json.Printer
import DomainColoring.Json.Reader
import DomainColoring.Proofs.Json.Numeral
import DomainColoring.Proofs.Json.Text

/-!
# Texts that spell values

A text spells a value if it has the tokens of the value in order, with any spaces between them, each
written as the printer writes it. The reader gets the value back from every such text, so it does
so from what the printer makes of the value in either of its layouts.
-/

namespace DomainColoring.Json

/-- Reading the digits of a number rounds them to this number. -/
def Rereads (x : Float) : Prop :=
  (readNumber (Decimal.Layout.json.chars x)).1 = .real x

/-- The number that a value is, if it is not a whole one. -/
def real? : Json → Option Float
  | real x => some x
  | _ => none

theorem real?_eq_some_iff {value : Json} {x : Float} : value.real? = some x ↔ value = .real x := by
  cases value <;> simp [real?]

instance (x : Float) : Decidable (Rereads x) :=
  decidable_of_iff ((readNumber (Decimal.Layout.json.chars x)).1.real? = some x) real?_eq_some_iff

/-- The values without parts that are read as they were written. -/
inductive ReadsBack : Json → Prop where
  | null : ReadsBack .null
  | bool (flag : Bool) : ReadsBack (.bool flag)
  | natural (number : UInt64) : ReadsBack (.natural number)
  | string (chars : List Char) : ReadsBack (.string chars)
  | real {x : Float} (finite : x.isFinite = true) (rereads : Rereads x) : ReadsBack (.real x)

/-- Nothing but space. -/
def IsBlank (text : List Char) : Prop :=
  ∀ c ∈ text, isSpace c = true

mutual

/-- A text spells a value. -/
inductive Spells : List Char → Json → Prop where
  | scalar {value : Json} (readsBack : ReadsBack value) : Spells (scalarText value) value
  | emptyArray : Spells ['[', ']'] (.array [] true)
  | array {text : List Char} {items : List Json} (inside : SpellsItems text items) :
      Spells ('[' :: text ++ [']']) (.array items true)
  | emptyObject : Spells ['{', '}'] (.object [] true)
  | object {text : List Char} {members : List (Json × Json)}
      (inside : SpellsMembers text members) :
      Spells ('{' :: text ++ ['}']) (.object members true)

/-- A text spells the items of an array, of which there are some. -/
inductive SpellsItems : List Char → List Json → Prop where
  | last {before text behind : List Char} {item : Json} (space : IsBlank before)
      (spells : Spells text item) (space' : IsBlank behind) :
      SpellsItems (before ++ text ++ behind) [item]
  | more {before text behind rest : List Char} {item : Json} {items : List Json}
      (space : IsBlank before) (spells : Spells text item) (space' : IsBlank behind)
      (others : SpellsItems rest items) :
      SpellsItems (before ++ text ++ behind ++ ',' :: rest) (item :: items)

/-- A text spells the members of an object, of which there are some. -/
inductive SpellsMembers : List Char → List (Json × Json) → Prop where
  | last (name : List Char) {before gap text behind : List Char} {value : Json}
      (space : IsBlank before) (space' : IsBlank gap) (spells : Spells text value)
      (space'' : IsBlank behind) :
      SpellsMembers (before ++ Text.write name ++ ':' :: gap ++ text ++ behind)
        [(.string name, value)]
  | more (name : List Char) {before gap text behind rest : List Char} {value : Json}
      {members : List (Json × Json)} (space : IsBlank before) (space' : IsBlank gap)
      (spells : Spells text value) (space'' : IsBlank behind)
      (others : SpellsMembers rest members) :
      SpellsMembers (before ++ Text.write name ++ ':' :: gap ++ text ++ behind ++ ',' :: rest)
        ((.string name, value) :: members)

end

variable {text rest before behind : List Char} {value : Json} {items : List Json}
  {members : List (Json × Json)} {steps : Nat}

theorem skipSpace_append (blank : IsBlank before) (text : List Char) :
    skipSpace (before ++ text) = skipSpace text :=
  List.dropWhile_append_of_pos blank

theorem skipSpace_cons {c : Char} (visible : isSpace c = false) (rest : List Char) :
    skipSpace (c :: rest) = c :: rest := by
  rw [skipSpace, List.dropWhile_cons, visible]
  rfl

theorem readValue_append (blank : IsBlank before) (text : List Char) :
    readValue steps (before ++ text) = readValue steps text := by
  cases steps with
  | zero => rw [readValue, readValue]
  | succ steps => rw [readValue, readValue, skipSpace_append blank]

theorem isSpace_cases {c : Char} (space : isSpace c = true) :
    c = ' ' ∨ c = '\n' ∨ c = '\t' ∨ c = '\r' := by
  simpa [isSpace, or_assoc] using space

/-- Neither space nor what stands behind a value can be part of a number. -/
theorem endsNumber_append {c : Char} (blank : IsBlank before) (ends : EndsNumber [c])
    (rest : List Char) : EndsNumber (before ++ c :: rest) := by
  intro first isFirst
  cases before with
  | nil =>
    cases isFirst
    exact ends c rfl
  | cons space more =>
    obtain rfl : space = first := Option.some.inj isFirst
    rcases isSpace_cases (blank space List.mem_cons_self) with rfl | rfl | rfl | rfl <;> decide

theorem endsNumber_of_mem {c : Char} (closes : c ∈ [',', ']', '}']) : EndsNumber [c] := by
  intro first isFirst
  obtain rfl : c = first := Option.some.inj isFirst
  simp only [List.mem_cons, List.not_mem_nil, or_false] at closes
  rcases closes with rfl | rfl | rfl <;> decide

theorem Numeral.exists_cons {n : Numeral} (proper : n.IsProper) :
    ∃ first more, n.text = first :: more ∧ (first = '-' ∨ first.isDigit = true) := by
  obtain ⟨first, more, whole, digit⟩ := proper.isNumeral.exists_cons
  cases negative : n.negative with
  | true => exact ⟨'-', _, by rw [text, negative]; rfl, .inl rfl⟩
  | false => exact ⟨first, _, by rw [text, negative, whole]; rfl, .inr digit⟩

theorem ne_of_begins {first c : Char} (begins : first = '-' ∨ first.isDigit = true)
    (noNumber : c ≠ '-' ∧ c.isDigit = false) : first ≠ c := by
  rintro rfl
  rcases begins with minus | digit
  · exact noNumber.1 minus
  · rw [noNumber.2] at digit
    cases digit

theorem isSpace_of_begins {first : Char} (begins : first = '-' ∨ first.isDigit = true) :
    isSpace first = false := by
  rw [← Bool.not_eq_true]
  intro space
  rcases isSpace_cases space with rfl | rfl | rfl | rfl <;>
    exact ne_of_begins begins (by decide) rfl

/-- What begins like a number is read as one. -/
theorem readValue_number {first : Char} (begins : first = '-' ∨ first.isDigit = true)
    (rest : List Char) : readValue (steps + 1) (first :: rest) = readNumber (first :: rest) := by
  rw [readValue, skipSpace_cons (isSpace_of_begins begins)]
  split
  · next same => exact absurd (List.cons.inj same).1 (ne_of_begins begins (by decide))
  · next same => exact absurd (List.cons.inj same).1 (ne_of_begins begins (by decide))
  · next same => exact absurd (List.cons.inj same).1 (ne_of_begins begins (by decide))
  · next same => exact absurd (List.cons.inj same).1 (ne_of_begins begins (by decide))
  · next same => exact absurd (List.cons.inj same).1 (ne_of_begins begins (by decide))
  · next same => exact absurd (List.cons.inj same).1 (ne_of_begins begins (by decide))
  · next same =>
    cases same
    rw [if_pos begins]
  · next same => cases same

theorem readValue_numeral {n : Numeral} (proper : n.IsProper) (ends : EndsNumber rest) :
    readValue (steps + 1) (n.text ++ rest) = (n.value, some rest) := by
  obtain ⟨first, more, text, begins⟩ := Numeral.exists_cons proper
  have read := Numeral.read?_text proper ends
  rw [text, List.cons_append] at read ⊢
  rw [readValue_number begins, readNumber, read]

theorem readString_write (name rest : List Char) :
    readString (name.flatMap Text.writeChar ++ '"' :: rest) = (.string name, some rest) := by
  rw [readString, Text.pieces?_flatMap]
  simp [Text.join?_map]

theorem readValue_scalar (readsBack : ReadsBack value) (ends : EndsNumber rest) :
    readValue (steps + 1) (scalarText value ++ rest) = (value, some rest) := by
  cases readsBack with
  | null => simp [scalarText, readValue, skipSpace, isSpace]
  | bool flag => cases flag <;> simp [scalarText, readValue, skipSpace, isSpace]
  | natural number =>
    rw [scalarText, ← Numeral.text_ofNat, readValue_numeral (Numeral.isProper_ofNat _) ends,
      Numeral.value_ofNat]
  | string chars =>
    have read := readString_write chars rest
    simp [scalarText, Text.write, readValue, skipSpace, isSpace, read]
  | real finite rereads =>
    obtain ⟨n, proper, text⟩ := Numeral.chars_eq finite
    have nothingBehind : EndsNumber [] := nofun
    have read := Numeral.read?_text proper nothingBehind
    rw [List.append_nil] at read
    rw [Rereads, text, readNumber, read] at rereads
    change n.value = _ at rereads
    rw [scalarText, text, readValue_numeral proper ends, rereads]

theorem readValue_array (opened : ∀ after, skipSpace text ≠ ']' :: after) :
    readValue (steps + 1) ('[' :: text) =
      (.array (readItems steps text).1 (readItems steps text).2.isSome,
        (readItems steps text).2) := by
  simp only [readValue, skipSpace_cons (show isSpace '[' = false by decide)]

theorem readValue_object (opened : ∀ after, skipSpace text ≠ '}' :: after) :
    readValue (steps + 1) ('{' :: text) =
      (.object (readMembers steps text).1 (readMembers steps text).2.isSome,
        (readMembers steps text).2) := by
  simp only [readValue, skipSpace_cons (show isSpace '{' = false by decide)]

/-- A name and its colon, with space in front. -/
theorem readName_write (enough : 0 < steps) (space : IsBlank before) (name rest : List Char) :
    readName steps (before ++ (Text.write name ++ ':' :: rest)) = (.string name, some rest) := by
  obtain ⟨steps, rfl⟩ := Nat.exists_eq_add_of_lt enough
  have read := readString_write name (':' :: rest)
  simp [readName, skipSpace_append space, Text.write,
    skipSpace_cons (show isSpace '"' = false by decide),
    skipSpace_cons (show isSpace ':' = false by decide), read]

theorem Spells.visible (spells : Spells text value) :
    ∃ first more, text = first :: more ∧ isSpace first = false ∧ first ≠ ']' := by
  cases spells with
  | scalar readsBack =>
    cases readsBack with
    | null => exact ⟨'n', _, rfl, rfl, by decide⟩
    | bool flag =>
      cases flag with
      | true => exact ⟨'t', _, rfl, rfl, by decide⟩
      | false => exact ⟨'f', _, rfl, rfl, by decide⟩
    | string chars => exact ⟨'"', _, rfl, rfl, by decide⟩
    | natural number =>
      obtain ⟨first, more, text, begins⟩ :=
        Numeral.exists_cons (Numeral.isProper_ofNat number.toNat)
      rw [Numeral.text_ofNat] at text
      exact ⟨first, more, text, isSpace_of_begins begins, ne_of_begins begins (by decide)⟩
    | real finite rereads =>
      obtain ⟨n, proper, written⟩ := Numeral.chars_eq finite
      obtain ⟨first, more, text, begins⟩ := Numeral.exists_cons proper
      exact ⟨first, more, written.trans text, isSpace_of_begins begins,
        ne_of_begins begins (by decide)⟩
  | emptyArray => exact ⟨'[', _, rfl, rfl, by decide⟩
  | array inside => exact ⟨'[', _, rfl, rfl, by decide⟩
  | emptyObject => exact ⟨'{', _, rfl, rfl, by decide⟩
  | object inside => exact ⟨'{', _, rfl, rfl, by decide⟩

theorem SpellsItems.opened (inside : SpellsItems text items) (rest after : List Char) :
    skipSpace (text ++ rest) ≠ ']' :: after := by
  have begins {before text behind : List Char} {item : Json} (space : IsBlank before)
      (spells : Spells text item) : skipSpace (before ++ (text ++ behind)) ≠ ']' :: after := by
    obtain ⟨first, more, rfl, visible, noEnd⟩ := spells.visible
    rw [skipSpace_append space, List.cons_append, skipSpace_cons visible]
    exact fun same => noEnd (List.cons.inj same).1
  cases inside with
  | last space spells _ =>
    rw [List.append_assoc, List.append_assoc]
    exact begins space spells
  | more space spells _ _ =>
    rw [List.append_assoc, List.append_assoc, List.append_assoc]
    exact begins space spells

theorem SpellsMembers.opened (inside : SpellsMembers text members) (rest after : List Char) :
    skipSpace (text ++ rest) ≠ '}' :: after := by
  have begins {before name behind : List Char} (space : IsBlank before) :
      skipSpace (before ++ (Text.write name ++ behind)) ≠ '}' :: after := by
    rw [skipSpace_append space, Text.write, List.cons_append, List.cons_append,
      skipSpace_cons (by decide)]
    nofun
  cases inside with
  | last _ space _ _ _ =>
    simp only [List.append_assoc]
    exact begins space
  | more _ space _ _ _ _ =>
    simp only [List.append_assoc]
    exact begins space

/-- In a number of steps, the reader gets from a text what the text in front spells, and the text
behind it. A value takes a step, and so do the items of an array and the members of an object
each. -/
structure ReadsSpelled (steps : Nat) : Prop where
  value : ∀ {text value} rest, Spells text value → 3 * text.length ≤ steps → EndsNumber rest →
    readValue steps (text ++ rest) = (value, some rest)
  items : ∀ {text items} rest, SpellsItems text items → 3 * text.length + 1 ≤ steps →
    readItems steps (text ++ ']' :: rest) = (items, some rest)
  members : ∀ {text members} rest, SpellsMembers text members → 3 * text.length + 1 ≤ steps →
    readMembers steps (text ++ '}' :: rest) = (members, some rest)

namespace ReadsSpelled

theorem zero : ReadsSpelled 0 where
  value _ spells enough _ := by
    obtain ⟨first, more, rfl, -⟩ := spells.visible
    simp at enough
  items _ _ enough := by omega
  members _ _ enough := by omega

variable (reads : ReadsSpelled steps)
include reads

/-- A value with space around it is read up to this space. -/
theorem spaced {c : Char} (space : IsBlank before) (spells : Spells text value)
    (space' : IsBlank behind) (enough : 3 * text.length ≤ steps) (closes : c ∈ [',', ']', '}'])
    (rest : List Char) :
    readValue steps (before ++ (text ++ (behind ++ c :: rest))) =
      (value, some (behind ++ c :: rest)) := by
  rw [readValue_append space]
  exact reads.value _ spells enough (endsNumber_append space' (endsNumber_of_mem closes) rest)

theorem value_succ (rest : List Char) (spells : Spells text value)
    (enough : 3 * text.length ≤ steps + 1) (ends : EndsNumber rest) :
    readValue (steps + 1) (text ++ rest) = (value, some rest) := by
  cases spells with
  | scalar readsBack => exact readValue_scalar readsBack ends
  | emptyArray => simp [readValue, skipSpace, isSpace]
  | emptyObject => simp [readValue, skipSpace, isSpace]
  | array inside =>
    have read := reads.items rest inside (by simp at enough; omega)
    rw [List.cons_append, List.cons_append, List.append_assoc, List.singleton_append,
      readValue_array (inside.opened _), read]
    rfl
  | object inside =>
    have read := reads.members rest inside (by simp at enough; omega)
    rw [List.cons_append, List.cons_append, List.append_assoc, List.singleton_append,
      readValue_object (inside.opened _), read]
    rfl

theorem items_succ (rest : List Char) (inside : SpellsItems text items)
    (enough : 3 * text.length + 1 ≤ steps + 1) :
    readItems (steps + 1) (text ++ ']' :: rest) = (items, some rest) := by
  cases inside with
  | last space spells space' =>
    have read := reads.spaced space spells space' (by simp at enough; omega)
      (show ']' ∈ [',', ']', '}'] by decide) rest
    simp [readItems, read, skipSpace_append space',
      skipSpace_cons (show isSpace ']' = false by decide)]
  | @more _ _ _ others _ _ space spells space' inside =>
    have read := reads.spaced space spells space' (by simp at enough; omega)
      (show ',' ∈ [',', ']', '}'] by decide) (others ++ ']' :: rest)
    have readOthers := reads.items rest inside (by simp at enough; omega)
    simp [readItems, read, skipSpace_append space',
      skipSpace_cons (show isSpace ',' = false by decide), readOthers]

theorem members_succ (rest : List Char) (inside : SpellsMembers text members)
    (enough : 3 * text.length + 1 ≤ steps + 1) :
    readMembers (steps + 1) (text ++ '}' :: rest) = (members, some rest) := by
  have positive : 0 < steps := by
    cases inside <;> simp at enough <;> omega
  cases inside with
  | last name space space' spells space'' =>
    have read := reads.spaced space' spells space'' (by simp at enough; omega)
      (show '}' ∈ [',', ']', '}'] by decide) rest
    simp [readMembers, readName_write positive space name, read, skipSpace_append space'',
      skipSpace_cons (show isSpace '}' = false by decide)]
  | @more name _ _ _ _ others _ _ space space' spells space'' inside =>
    have read := reads.spaced space' spells space'' (by simp at enough; omega)
      (show ',' ∈ [',', ']', '}'] by decide) (others ++ '}' :: rest)
    have readOthers := reads.members rest inside (by simp at enough; omega)
    simp [readMembers, readName_write positive space name, read, skipSpace_append space'',
      skipSpace_cons (show isSpace ',' = false by decide), readOthers]

end ReadsSpelled

theorem readsSpelled (steps : Nat) : ReadsSpelled steps := by
  induction steps with
  | zero => exact .zero
  | succ steps inductionHypothesis =>
    exact ⟨inductionHypothesis.value_succ, inductionHypothesis.items_succ,
      inductionHypothesis.members_succ⟩

/-- What a text spells is read from it, and that is all that is in it. -/
theorem read_of_spells (spells : Spells text value) : read text = (value, true) := by
  have reads := (readsSpelled (3 * text.length + 3)).value [] spells (by omega) nofun
  rw [List.append_nil] at reads
  rw [read, reads]
  rfl

/-- A value all scalars in which read back, without open ends and with strings for names. -/
inductive IsSound : Json → Prop where
  | scalar {value : Json} (readsBack : ReadsBack value) : IsSound value
  | array {items : List Json} (items_sound : ∀ item ∈ items, IsSound item) :
      IsSound (.array items true)
  | object {members : List (List Char × Json)}
      (members_sound : ∀ member ∈ members, IsSound member.2) :
      IsSound (.object (members.map fun member => (.string member.1, member.2)) true)

theorem isSound_record {members : List (String × Json)}
    (members_sound : ∀ member ∈ members, IsSound member.2) : IsSound (.record members) := by
  have sound : ∀ member ∈ members.map fun member => (member.1.toList, member.2),
      IsSound member.2 := by
    intro member isMember
    obtain ⟨named, isNamed, rfl⟩ := List.mem_map.mp isMember
    exact members_sound named isNamed
  have written := IsSound.object sound
  rwa [List.map_map] at written

theorem isBlank_nil : IsBlank [] := nofun

theorem isBlank_newline (level : Nat) : IsBlank (newline level) := by
  intro c member
  rcases List.mem_cons.mp member with rfl | space
  · rfl
  · rw [List.eq_of_mem_replicate space]
    rfl

theorem spellsItems_indented {level : Nat} (some : items ≠ [])
    (spells : ∀ item ∈ items, Spells (indentedText level item) item) (blank : IsBlank behind) :
    SpellsItems (indentedItems level items ++ behind) items := by
  induction items with
  | nil => exact absurd rfl some
  | cons item rest inductionHypothesis =>
    have first := spells item List.mem_cons_self
    cases rest with
    | nil => exact .last (isBlank_newline level) first blank
    | cons next rest =>
      have others := inductionHypothesis (List.cons_ne_nil next rest)
        fun item member => spells item (List.mem_cons_of_mem _ member)
      have spelled := SpellsItems.more (isBlank_newline level) first isBlank_nil others
      simpa [indentedItems] using spelled

theorem spellsMembers_indented {level : Nat} {members : List (List Char × Json)}
    (some : members ≠ [])
    (spells : ∀ member ∈ members, Spells (indentedText level member.2) member.2)
    (blank : IsBlank behind) :
    SpellsMembers
      (indentedMembers level (members.map fun member => (.string member.1, member.2)) ++ behind)
      (members.map fun member => (.string member.1, member.2)) := by
  induction members with
  | nil => exact absurd rfl some
  | cons member rest inductionHypothesis =>
    obtain ⟨name, value⟩ := member
    have first := spells (name, value) List.mem_cons_self
    have gap : IsBlank [' '] := by
      intro c member
      rw [List.mem_singleton.mp member]
      rfl
    cases rest with
    | nil =>
      have spelled : SpellsMembers
          (newline level ++ Text.write name ++ ':' :: [' '] ++ indentedText level value ++ behind)
          [(.string name, value)] :=
        .last name (isBlank_newline level) gap first blank
      simpa [indentedMembers, compactText, scalarText] using spelled
    | cons next rest =>
      have others := inductionHypothesis (List.cons_ne_nil next rest)
        fun item member => spells item (List.mem_cons_of_mem _ member)
      have spelled := SpellsMembers.more name (isBlank_newline level) gap first isBlank_nil others
      simpa [indentedMembers, compactText, scalarText] using spelled

/-- The indented text of a value spells it. -/
theorem spells_indented (sound : IsSound value) (level : Nat) :
    Spells (indentedText level value) value := by
  induction sound generalizing level with
  | @scalar value readsBack =>
    have same : indentedText level value = scalarText value := by cases readsBack <;> rfl
    exact same ▸ .scalar readsBack
  | @array items items_sound inductionHypothesis =>
    cases items with
    | nil => exact .emptyArray
    | cons item rest =>
      have inside := spellsItems_indented (List.cons_ne_nil item rest)
        (fun item member => inductionHypothesis item member (level + 1)) (isBlank_newline level)
      exact .array inside
  | @object members members_sound inductionHypothesis =>
    cases members with
    | nil => exact .emptyObject
    | cons member rest =>
      have inside := spellsMembers_indented (List.cons_ne_nil member rest)
        (fun member isMember => inductionHypothesis member isMember (level + 1))
        (isBlank_newline level)
      exact .object inside

/-- What is printed with indentation is read back. -/
theorem read_indented (sound : IsSound value) : read (indentedText 0 value) = (value, true) :=
  read_of_spells (spells_indented sound 0)

theorem spellsItems_compact (some : items ≠ [])
    (spells : ∀ item ∈ items, Spells (compactText item) item) :
    SpellsItems (compactItems items) items := by
  induction items with
  | nil => exact absurd rfl some
  | cons item rest inductionHypothesis =>
    have first := spells item List.mem_cons_self
    cases rest with
    | nil => simpa [compactItems] using SpellsItems.last isBlank_nil first isBlank_nil
    | cons next rest =>
      have others := inductionHypothesis (List.cons_ne_nil next rest)
        fun item member => spells item (List.mem_cons_of_mem _ member)
      simpa [compactItems] using SpellsItems.more isBlank_nil first isBlank_nil others

theorem spellsMembers_compact {members : List (List Char × Json)} (some : members ≠ [])
    (spells : ∀ member ∈ members, Spells (compactText member.2) member.2) :
    SpellsMembers (compactMembers (members.map fun member => (.string member.1, member.2)))
      (members.map fun member => (.string member.1, member.2)) := by
  induction members with
  | nil => exact absurd rfl some
  | cons member rest inductionHypothesis =>
    obtain ⟨name, value⟩ := member
    have first := spells (name, value) List.mem_cons_self
    cases rest with
    | nil =>
      have spelled := SpellsMembers.last name isBlank_nil isBlank_nil first isBlank_nil
      simpa [compactMembers, compactText, scalarText] using spelled
    | cons next rest =>
      have others := inductionHypothesis (List.cons_ne_nil next rest)
        fun item member => spells item (List.mem_cons_of_mem _ member)
      have spelled := SpellsMembers.more name isBlank_nil isBlank_nil first isBlank_nil others
      simpa [compactMembers, compactText, scalarText] using spelled

/-- The compact text of a value spells it. -/
theorem spells_compact (sound : IsSound value) : Spells (compactText value) value := by
  induction sound with
  | @scalar value readsBack =>
    have same : compactText value = scalarText value := by cases readsBack <;> rfl
    exact same ▸ .scalar readsBack
  | @array items items_sound inductionHypothesis =>
    cases items with
    | nil => exact .emptyArray
    | cons item rest =>
      exact .array (spellsItems_compact (List.cons_ne_nil item rest) inductionHypothesis)
  | @object members members_sound inductionHypothesis =>
    cases members with
    | nil => exact .emptyObject
    | cons member rest =>
      exact .object (spellsMembers_compact (List.cons_ne_nil member rest) inductionHypothesis)

/-- What is printed without spaces is read back. -/
theorem read_compact (sound : IsSound value) : read (compactText value) = (value, true) :=
  read_of_spells (spells_compact sound)

end DomainColoring.Json
