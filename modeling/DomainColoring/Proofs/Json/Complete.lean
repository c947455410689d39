import DomainColoring.Json.Decoder
import DomainColoring.Json.Reader
import DomainColoring.Proofs.Binary64.Exceptions
import DomainColoring.Proofs.Decimal.Value

/-!
# Values that are read to their end

If there is text left behind a value, the value is complete: it has no open end, nothing in it stops
a reader, and the numbers in it are finite. Which value it is for a text is not looked at here.
-/

namespace DomainColoring

/-- A power of ten that is not one is two or more, though perhaps past the finite numbers. -/
theorem Decimal.toFloat_power {places : Nat} (positive : 0 < places) :
    (toFloat ⟨1, places⟩).isNaN = false ∧
      1024 ≤ Binary64.exponentField (toFloat ⟨1, places⟩) := by
  have units : toFloat ⟨1, places⟩ = Binary64.ofUnits (10 ^ places * Binary64.one) 1 := by
    rw [toFloat_eq]
    simp [Binary64.nearest]
  have great : 2 ^ (3 * places + Binary64.unitPlaces) ≤ 10 ^ places * Binary64.one := by
    rw [Nat.pow_add, Binary64.one_eq]
    exact Nat.mul_le_mul_right _ (two_pow_le_ten_pow places)
  rw [units]
  exact Binary64.ofUnits_great (by rw [Binary64.unitPlaces]; omega) great

namespace Json

/-- Without open ends and without faults that stop a reader, and with finite numbers. -/
inductive IsComplete : Json → Prop where
  | null : IsComplete .null
  | bool (flag : Bool) : IsComplete (.bool flag)
  | natural (number : UInt64) : IsComplete (.natural number)
  | negative (magnitude : UInt64) : IsComplete (.negative magnitude)
  | real {x : Float} (finite : x.isFinite = true) : IsComplete (.real x)
  | string (chars : List Char) : IsComplete (.string chars)
  | passable : IsComplete (.broken true)
  | array {items : List Json} (complete : ∀ item ∈ items, IsComplete item) :
      IsComplete (.array items true)
  | object {members : List (Json × Json)} (names : ∀ member ∈ members, IsComplete member.1)
      (values : ∀ member ∈ members, IsComplete member.2) : IsComplete (.object members true)

variable {value : Json} {items : List Json} {members : List (Json × Json)} {x : Float}

theorem itemsPassable_iff :
    itemsPassable items = true ↔ ∀ item ∈ items, item.isPassable = true := by
  induction items with
  | nil => simp [itemsPassable]
  | cons item rest inductionHypothesis => simp [itemsPassable, inductionHypothesis]

theorem membersPassable_iff : membersPassable members = true ↔
    ∀ member ∈ members, member.1.isPassable = true ∧ member.2.isPassable = true := by
  induction members with
  | nil => simp [membersPassable]
  | cons member rest inductionHypothesis => simp [membersPassable, inductionHypothesis]

/-- What is complete can be skipped. -/
theorem IsComplete.isPassable (complete : value.IsComplete) : value.isPassable = true := by
  induction complete with
  | array _ items =>
    rw [Json.isPassable, Bool.true_and]
    exact itemsPassable_iff.mpr items
  | object _ _ names values =>
    rw [Json.isPassable, Bool.true_and]
    exact membersPassable_iff.mpr fun member isMember =>
      ⟨names member isMember, values member isMember⟩
  | null | bool | natural | negative | real | string | passable => rfl

/-- The numbers in what is complete are finite, whole ones included. -/
theorem IsComplete.isFinite_of_decodeReal (complete : value.IsComplete)
    (decoded : decodeReal value = .ok x) : x.isFinite = true := by
  cases complete with
  | natural number =>
    cases decoded
    exact Binary64.isFinite_toFloat number
  | negative magnitude =>
    cases decoded
    exact Binary64.isFinite_withSign true (Binary64.isFinite_toFloat magnitude)
  | real finite =>
    cases decoded
    exact finite
  | null | bool | string | passable | array | object => cases decoded

namespace Numeral

/-- Dividing by powers of ten does not leave the finite numbers. -/
theorem isFinite_scaleDown (finite : x.isFinite = true) {places : Nat} (positive : 0 < places) :
    (scaleDown x places).isFinite = true := by
  have divided {y : Float} {places : Nat} (finite : y.isFinite = true) (positive : 0 < places) :
      (y / Decimal.toFloat ⟨1, places⟩).isFinite = true :=
    let ⟨number, great⟩ := Decimal.toFloat_power positive
    Binary64.isFinite_div_of_great finite number great
  fun_induction scaleDown x places with
  | case1 x places near => exact divided finite positive
  | case2 x places far zero => exact finite
  | case3 x places far zero inductionHypothesis =>
    exact inductionHypothesis (divided finite (by decide)) (by omega)

theorem isFinite_of_scaled? {significand : Nat} {exponent : Int}
    (scaled : scaled? significand exponent = some x) : x.isFinite = true := by
  have whole := Binary64.isFinite_toFloat (UInt64.ofNat significand)
  dsimp only [scaled?] at scaled
  split at scaled
  · cases scaled
    exact isFinite_scaleDown whole (by omega)
  · split at scaled
    · exact (Option.filter_eq_some_iff.mp scaled).2
    · split at scaled
      · cases scaled
        exact whole
      · cases scaled

/-- A number has a finite value or, past the greatest finite one, none. -/
theorem isComplete_value (n : Numeral) : n.value.IsComplete := by
  dsimp only [value]
  split
  · exact .natural _
  · split
    · exact .negative _
    · split
      · next scaled => exact .real (Binary64.isFinite_withSign _ (isFinite_of_scaled? scaled))
      · exact .passable

end Numeral

variable {text rest : List Char} {steps : Nat}

theorem isComplete_readNumber (read : readNumber text = (value, some rest)) : value.IsComplete := by
  unfold readNumber at read
  split at read
  · cases read
    exact Numeral.isComplete_value _
  · cases read

theorem isComplete_readString (read : readString text = (value, some rest)) :
    value.IsComplete := by
  unfold readString at read
  split at read
  · cases read
  · split at read
    · cases read
      exact .string _
    · cases read
      exact .passable

theorem isComplete_readName (read : readName steps text = (value, some rest)) :
    value.IsComplete := by
  unfold readName at read
  split at read
  · cases read
  · split at read
    · split at read
      · cases read
      · next quoted =>
        split at read
        · cases read
          exact isComplete_readString quoted
        · cases read
    · cases read

/-- In a number of steps, the reader leaves text only behind what is complete. -/
structure ReadsComplete (steps : Nat) : Prop where
  value : ∀ {text value rest}, readValue steps text = (value, some rest) → value.IsComplete
  items : ∀ {text items rest}, readItems steps text = (items, some rest) →
    ∀ item ∈ items, item.IsComplete
  members : ∀ {text members rest}, readMembers steps text = (members, some rest) →
    ∀ member ∈ members, member.1.IsComplete ∧ member.2.IsComplete

namespace ReadsComplete

theorem zero : ReadsComplete 0 where
  value read := by simp [readValue] at read
  items read := by simp [readItems] at read
  members read := by simp [readMembers] at read

variable (complete : ReadsComplete steps)
include complete

theorem value_succ (read : readValue (steps + 1) text = (value, some rest)) :
    value.IsComplete := by
  unfold readValue at read
  split at read
  · cases read
    exact .null
  · cases read
    exact .bool true
  · cases read
    exact .bool false
  · exact isComplete_readString read
  · next behind _ =>
    split at read
    · cases read
      exact .array nofun
    · rcases inside : readItems steps behind with ⟨items, after⟩
      rw [inside] at read
      cases read
      exact .array (complete.items inside)
  · next behind _ =>
    split at read
    · cases read
      exact .object nofun nofun
    · rcases inside : readMembers steps behind with ⟨members, after⟩
      rw [inside] at read
      cases read
      exact .object (fun member isMember => (complete.members inside member isMember).1)
        fun member isMember => (complete.members inside member isMember).2
  · split at read
    · exact isComplete_readNumber read
    · cases read
  · cases read

theorem items_succ (read : readItems (steps + 1) text = (items, some rest)) :
    ∀ item ∈ items, item.IsComplete := by
  unfold readItems at read
  split at read
  · cases read
  · next item behind first =>
    have isComplete := complete.value first
    split at read
    · next behind _ =>
      rcases others : readItems steps behind with ⟨more, after⟩
      rw [others] at read
      cases read
      exact List.forall_mem_cons.mpr ⟨isComplete, complete.items others⟩
    · cases read
      exact List.forall_mem_singleton.mpr isComplete
    · cases read

theorem members_succ (read : readMembers (steps + 1) text = (members, some rest)) :
    ∀ member ∈ members, member.1.IsComplete ∧ member.2.IsComplete := by
  unfold readMembers at read
  split at read
  · cases read
  · next name behind named =>
    split at read
    · cases read
    · next value behind first =>
      have isComplete := And.intro (isComplete_readName named) (complete.value first)
      split at read
      · next behind _ =>
        rcases others : readMembers steps behind with ⟨more, after⟩
        rw [others] at read
        cases read
        exact List.forall_mem_cons.mpr ⟨isComplete, complete.members others⟩
      · cases read
        exact List.forall_mem_singleton.mpr isComplete
      · cases read

end ReadsComplete

theorem readsComplete (steps : Nat) : ReadsComplete steps := by
  induction steps with
  | zero => exact .zero
  | succ steps inductionHypothesis =>
    exact ⟨inductionHypothesis.value_succ, inductionHypothesis.items_succ,
      inductionHypothesis.members_succ⟩

/-- If a text has nothing but space behind its value, the value is complete. -/
theorem isComplete_of_read (ended : read text = (value, true)) : value.IsComplete := by
  rcases first : readValue (3 * text.length + 3) text with ⟨found, none | rest⟩ <;>
    rw [read, first] at ended
  · cases ended
  · obtain ⟨rfl, -⟩ := Prod.mk.inj ended
    exact (readsComplete _).value first

end Json
end DomainColoring
