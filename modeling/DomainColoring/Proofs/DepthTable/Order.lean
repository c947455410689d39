import DomainColoring.DepthTable
import DomainColoring.Proofs.Binary64.Order

/-!
# The order in which samples own a pixel

Where every key is a number, samples are in a strict linear order, the one with the greater
key first and of equal keys the one with the lesser number. `Covers` carries this order
over to the contents of slots, with the vacant slot last.
-/

namespace DomainColoring.DepthTable

open Binary64

variable {keyOf : UInt64 → Float}

/-- Between numbers, the order looks at signed units and then at the samples. -/
theorem precedes_iff {a b : Float} {s t : UInt64} (aNumber : a.isNaN = false)
    (bNumber : b.isNaN = false) :
    precedes (a, s) (b, t) = true ↔
      signedUnits b < signedUnits a ∨ signedUnits a = signedUnits b ∧ s < t := by
  have greater : a > b ↔ signedUnits b < signedUnits a := lt_iff_signedUnits bNumber aNumber
  have same := beq_iff_signedUnits aNumber bNumber
  simp [precedes, greater, same]

/-- No sample precedes itself. -/
theorem not_precedes_self {key : Float} (number : key.isNaN = false) (s : UInt64) :
    ¬ precedes (key, s) (key, s) = true := by
  rw [precedes_iff number number]
  rintro (less | ⟨-, less⟩)
  · exact lt_irrefl _ less
  · exact UInt64.lt_irrefl s less

/-- One sample is another, or precedes it. -/
def Wins (keyOf : UInt64 → Float) (s t : UInt64) : Prop :=
  s = t ∨ precedes (keyOf s, s) (keyOf t, t) = true

theorem wins_refl (s : UInt64) : Wins keyOf s s :=
  .inl rfl

/-- Of two samples, the winner has the greater key, or the same and no greater number. -/
theorem wins_iff (proper : ∀ s, (keyOf s).isNaN = false) {s t : UInt64} :
    Wins keyOf s t ↔ keyOf t < keyOf s ∨ (keyOf t == keyOf s) = true ∧ s ≤ t := by
  rw [Wins, precedes_iff (proper s) (proper t), lt_iff_signedUnits (proper t) (proper s),
    beq_iff_signedUnits (proper t) (proper s), UInt64.le_iff_lt_or_eq]
  constructor
  · rintro (rfl | greater | ⟨same, less⟩)
    · exact .inr ⟨rfl, .inr rfl⟩
    · exact .inl greater
    · exact .inr ⟨same.symm, .inl less⟩
  · rintro (greater | ⟨same, less | rfl⟩)
    · exact .inr (.inl greater)
    · exact .inr (.inr ⟨same.symm, less⟩)
    · exact .inl rfl

theorem wins_trans (proper : ∀ s, (keyOf s).isNaN = false) {r s t : UInt64}
    (first : Wins keyOf r s) (second : Wins keyOf s t) : Wins keyOf r t := by
  rcases first with rfl | first
  · exact second
  · rcases second with rfl | second
    · exact .inr first
    · right
      rw [precedes_iff (proper _) (proper _)] at first second ⊢
      rcases first with greater | ⟨same, less⟩
      · left
        rcases second with further | ⟨same', _⟩ <;> omega
      · rcases second with further | ⟨same', less'⟩
        · left
          omega
        · exact .inr ⟨same.trans same', UInt64.lt_trans less less'⟩

theorem wins_antisymm (proper : ∀ s, (keyOf s).isNaN = false) {s t : UInt64}
    (first : Wins keyOf s t) (second : Wins keyOf t s) : s = t := by
  rcases first with same | first
  · exact same
  · rcases second with same | second
    · exact same.symm
    · rw [precedes_iff (proper _) (proper _)] at first second
      rcases first with greater | ⟨_, less⟩
      · rcases second with greater' | ⟨same, _⟩ <;> omega
      · rcases second with greater | ⟨_, less'⟩
        · omega
        · exact absurd (UInt64.lt_trans less less') (UInt64.lt_irrefl s)

/-- What precedes a sample precedes all that this sample wins against. -/
theorem precedes_of_wins (proper : ∀ s, (keyOf s).isNaN = false) {r s t : UInt64}
    (first : precedes (keyOf r, r) (keyOf s, s) = true) (second : Wins keyOf s t) :
    precedes (keyOf r, r) (keyOf t, t) = true := by
  rcases wins_trans proper (.inr first) second with same | further
  · subst same
    have equal := wins_antisymm proper (.inr first) second
    subst equal
    exact absurd first (not_precedes_self (proper r) r)
  · exact further

theorem wins_total (proper : ∀ s, (keyOf s).isNaN = false) (s t : UInt64) :
    Wins keyOf s t ∨ Wins keyOf t s := by
  simp only [Wins, precedes_iff (proper s) (proper t), precedes_iff (proper t) (proper s)]
  rcases lt_trichotomy (signedUnits (keyOf s)) (signedUnits (keyOf t)) with less | same | more
  · exact .inr (.inr (.inl less))
  · rcases UInt64.le_total s t with upTo | downTo
    · rcases UInt64.le_iff_lt_or_eq.mp upTo with before | equal
      · exact .inl (.inr (.inr ⟨same, before⟩))
      · exact .inl (.inl equal)
    · rcases UInt64.le_iff_lt_or_eq.mp downTo with behind | equal
      · exact .inr (.inr (.inr ⟨same.symm, behind⟩))
      · exact .inr (.inl equal)
  · exact .inl (.inr (.inl more))

/-- The owner of a pixel among the samples it was offered to: the one that wins against all of
them, and nobody if there are none. -/
def IsBest (keyOf : UInt64 → Float) (offered : UInt64 → Prop) : Option UInt64 → Prop
  | none => ∀ sample, ¬ offered sample
  | some best =>
    offered best ∧ ∀ sample, offered sample →
      keyOf sample < keyOf best ∨ (keyOf sample == keyOf best) = true ∧ best ≤ sample

/-- There is at most one best owner. -/
theorem isBest_unique (proper : ∀ s, (keyOf s).isNaN = false) {offered : UInt64 → Prop}
    {left right : Option UInt64} (leftBest : IsBest keyOf offered left)
    (rightBest : IsBest keyOf offered right) : left = right := by
  cases left with
  | none =>
    cases right with
    | none => rfl
    | some s => exact absurd rightBest.1 (leftBest s)
  | some s =>
    cases right with
    | none => exact absurd leftBest.1 (rightBest s)
    | some t =>
      have first := (wins_iff proper).mpr (leftBest.2 t rightBest.1)
      have second := (wins_iff proper).mpr (rightBest.2 s leftBest.1)
      rw [wins_antisymm proper first second]

/-- The content of a slot stands for an owner that wins against that of another content. -/
def Covers (keyOf : UInt64 → Float) (content other : UInt64) : Prop :=
  other = vacant ∨ content ≠ vacant ∧ Wins keyOf (content - 1) (other - 1)

theorem covers_refl (content : UInt64) : Covers keyOf content content := by
  by_cases empty : content = vacant
  · exact .inl empty
  · exact .inr ⟨empty, wins_refl _⟩

theorem covers_trans (proper : ∀ s, (keyOf s).isNaN = false) {first second third : UInt64}
    (upper : Covers keyOf first second) (lower : Covers keyOf second third) :
    Covers keyOf first third := by
  rcases lower with empty | ⟨occupied, lower⟩
  · exact .inl empty
  · rcases upper with empty | ⟨occupied', upper⟩
    · exact absurd empty occupied
    · exact .inr ⟨occupied', wins_trans proper upper lower⟩

/-- The tag of a sample is the content of no vacant slot, as long as the sample is not the
greatest word. -/
theorem tag_ne_vacant {sample : UInt64} (small : sample < 0xffffffffffffffff) :
    sample + 1 ≠ vacant := by
  intro wrapped
  have sum := congrArg UInt64.toNat wrapped
  rw [UInt64.lt_iff_toNat_lt] at small
  simp [vacant] at sum small
  omega

/-- A sample that takes a slot covers what was in it. -/
theorem covers_of_takes {sample content : UInt64} (small : sample < 0xffffffffffffffff)
    (taken : takes keyOf sample content = true) : Covers keyOf (sample + 1) content := by
  simp only [takes, Bool.or_eq_true, decide_eq_true_eq] at taken
  rcases taken with empty | first
  · exact .inl empty
  · right
    refine ⟨tag_ne_vacant small, .inr ?_⟩
    simpa using first

/-- A content that a sample does not take covers the sample. -/
theorem covers_of_not_takes (proper : ∀ s, (keyOf s).isNaN = false) {sample content : UInt64}
    (refused : takes keyOf sample content = false) : Covers keyOf content (sample + 1) := by
  simp only [takes, Bool.or_eq_false_iff, decide_eq_false_iff_not] at refused
  obtain ⟨occupied, notFirst⟩ := refused
  right
  refine ⟨occupied, ?_⟩
  rw [UInt64.add_sub_cancel]
  rcases wins_total proper (content - 1) sample with wins | same | first
  · exact wins
  · exact .inl same.symm
  · rw [notFirst] at first
    exact absurd first (by decide)

theorem ownerOf_vacant : ownerOf vacant = none :=
  if_pos rfl

theorem ownerOf_tag {sample : UInt64} (small : sample < 0xffffffffffffffff) :
    ownerOf (sample + 1) = some sample := by
  rw [ownerOf, if_neg (tag_ne_vacant small), UInt64.add_sub_cancel]

/-- A sample takes a slot if it precedes the owner, should there be one. -/
theorem takes_iff {sample content : UInt64} :
    takes keyOf sample content = true ↔ ∀ owner, ownerOf content = some owner →
      precedes (keyOf sample, sample) (keyOf owner, owner) = true := by
  by_cases free : content = vacant
  · simp [takes, free, ownerOf_vacant]
  · simp [takes, free, ownerOf]

/-- The owner of a slot does not take it once more. -/
theorem not_takes_own (proper : ∀ s, (keyOf s).isNaN = false) {sample content : UInt64}
    (owned : ownerOf content = some sample) : takes keyOf sample content = false := by
  rw [← Bool.not_eq_true, takes_iff]
  exact fun first => not_precedes_self (proper sample) sample (first sample owned)

/-- The owner of a slot that covers all samples of a set, and has one of them if it is not
vacant, is the best of them. -/
theorem isBest_ownerOf (proper : ∀ s, (keyOf s).isNaN = false) {offered : UInt64 → Prop}
    (small : ∀ sample, offered sample → sample < 0xffffffffffffffff) {content : UInt64}
    (source : content ≠ vacant → ∃ sample, offered sample ∧ content = sample + 1)
    (covered : ∀ sample, offered sample → Covers keyOf content (sample + 1)) :
    IsBest keyOf offered (ownerOf content) := by
  by_cases empty : content = vacant
  · rw [empty, ownerOf_vacant]
    intro sample member
    rcases covered sample member with wrapped | ⟨occupied, _⟩
    · exact tag_ne_vacant (small sample member) wrapped
    · exact occupied empty
  · obtain ⟨best, member, rfl⟩ := source empty
    rw [ownerOf_tag (small best member)]
    refine ⟨member, fun sample other => ?_⟩
    rcases covered sample other with wrapped | ⟨_, wins⟩
    · exact absurd wrapped (tag_ne_vacant (small sample other))
    · rw [UInt64.add_sub_cancel, UInt64.add_sub_cancel] at wins
      exact (wins_iff proper).mp wins

theorem ownerOf_injective : Function.Injective ownerOf := by
  intro left right same
  unfold ownerOf at same
  by_cases leftEmpty : left = vacant
  · by_cases rightEmpty : right = vacant
    · rw [leftEmpty, rightEmpty]
    · rw [if_pos leftEmpty, if_neg rightEmpty] at same
      cases same
  · by_cases rightEmpty : right = vacant
    · rw [if_neg leftEmpty, if_pos rightEmpty] at same
      cases same
    · rw [if_neg leftEmpty, if_neg rightEmpty] at same
      have equal := congrArg (· + 1) (Option.some.inj same)
      simpa using equal

end DomainColoring.DepthTable
