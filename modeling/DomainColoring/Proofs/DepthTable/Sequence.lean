import DomainColoring.Proofs.DepthTable.Order
import DomainColoring.Proofs.DepthTable.Slots

/-!
# Offers made one after another

What is in a slot after a list of offers depends only on the samples that were offered this
slot, in their order. `settle` follows one slot through them. Nothing is said about a slot's
content before the first offer except that it may be vacant.

Keys that are no numbers are not excluded: with them some sample of a slot still owns it, but
which one depends on the order.
-/

namespace DomainColoring.DepthTable

/-- A pixel that is offered to a sample. -/
structure Offer where
  x : UInt64
  y : UInt64
  sample : UInt64
deriving DecidableEq

/-- Offers made one after another. -/
def offerAll (t : DepthTable) (keyOf : UInt64 → Float) (offers : List Offer) : DepthTable :=
  offers.foldl (fun table o => (table.offer keyOf o.x o.y o.sample).2) t

/-- The content of a slot after it was offered to samples one after another. -/
def settle (keyOf : UInt64 → Float) (samples : List UInt64) (content : UInt64) : UInt64 :=
  samples.foldl
    (fun content sample => if takes keyOf sample content then sample + 1 else content) content

variable {keyOf : UInt64 → Float}

@[simp] theorem settle_nil (content : UInt64) : settle keyOf [] content = content := rfl

@[simp] theorem settle_cons (sample : UInt64) (rest : List UInt64) (content : UInt64) :
    settle keyOf (sample :: rest) content =
      settle keyOf rest (if takes keyOf sample content then sample + 1 else content) := rfl

theorem map_settle_nil (content : Option UInt64) : content.map (settle keyOf []) = content := by
  cases content with
  | none => rfl
  | some content => rfl

theorem settle_append (first second : List UInt64) (content : UInt64) :
    settle keyOf (first ++ second) content = settle keyOf second (settle keyOf first content) :=
  List.foldl_append

variable (keyOf) in
/-- A slot keeps its content or comes to hold one of the samples. -/
theorem settle_source (samples : List UInt64) (content : UInt64) :
    settle keyOf samples content = content ∨
      ∃ sample ∈ samples, settle keyOf samples content = sample + 1 := by
  induction samples generalizing content with
  | nil => exact .inl rfl
  | cons first rest inductionHypothesis =>
    rw [settle_cons]
    rcases inductionHypothesis (if takes keyOf first content then first + 1 else content)
      with kept | ⟨sample, member, holds⟩
    · rw [kept]
      split
      · exact .inr ⟨first, List.mem_cons_self, rfl⟩
      · exact .inl rfl
    · exact .inr ⟨sample, List.mem_cons_of_mem _ member, holds⟩

/-- A slot with an owner never becomes vacant. -/
theorem settle_ne_vacant_of_ne {samples : List UInt64}
    (small : ∀ sample ∈ samples, sample < 0xffffffffffffffff) {content : UInt64}
    (occupied : content ≠ vacant) : settle keyOf samples content ≠ vacant := by
  rcases settle_source keyOf samples content with kept | ⟨sample, member, holds⟩
  · rwa [kept]
  · rw [holds]
    exact tag_ne_vacant (small sample member)

variable (keyOf) in
/-- Whatever the keys are, the first sample takes a vacant slot. -/
theorem settle_ne_vacant {samples : List UInt64}
    (small : ∀ sample ∈ samples, sample < 0xffffffffffffffff) (offered : samples ≠ []) :
    settle keyOf samples vacant ≠ vacant := by
  cases samples with
  | nil => exact absurd rfl offered
  | cons first rest =>
    have taken : takes keyOf first vacant = true := by simp [takes]
    rw [settle_cons, if_pos taken]
    exact settle_ne_vacant_of_ne (fun sample member => small sample (List.mem_cons_of_mem _ member))
      (tag_ne_vacant (small first List.mem_cons_self))

variable (keyOf) in
/-- The owner of a slot that was vacant at first: nobody if it was not offered, and otherwise
one of those it was offered to. -/
theorem ownerOf_settle {samples : List UInt64}
    (small : ∀ sample ∈ samples, sample < 0xffffffffffffffff) :
    samples = [] ∧ ownerOf (settle keyOf samples vacant) = none ∨
      ∃ sample ∈ samples, ownerOf (settle keyOf samples vacant) = some sample := by
  by_cases none : samples = []
  · left
    rw [none]
    exact ⟨rfl, rfl⟩
  · right
    have occupied := settle_ne_vacant keyOf small none
    rcases settle_source keyOf samples vacant with kept | ⟨sample, member, holds⟩
    · exact absurd kept occupied
    · refine ⟨sample, member, ?_⟩
      rw [holds, ownerOf_tag (small sample member)]

/-- A slot covers what was in it and every sample it was offered to. -/
theorem covers_settle (proper : ∀ s, (keyOf s).isNaN = false) {samples : List UInt64}
    (small : ∀ sample ∈ samples, sample < 0xffffffffffffffff) (content : UInt64) :
    Covers keyOf (settle keyOf samples content) content ∧
      ∀ sample ∈ samples, Covers keyOf (settle keyOf samples content) (sample + 1) := by
  induction samples generalizing content with
  | nil => exact ⟨covers_refl content, fun _ member => nomatch member⟩
  | cons first rest inductionHypothesis =>
    have smallFirst := small first List.mem_cons_self
    have smallRest : ∀ sample ∈ rest, sample < 0xffffffffffffffff :=
      fun sample member => small sample (List.mem_cons_of_mem _ member)
    obtain ⟨coversNext, coversRest⟩ := inductionHypothesis smallRest
      (if takes keyOf first content then first + 1 else content)
    have coversBoth : Covers keyOf (settle keyOf (first :: rest) content) content ∧
        Covers keyOf (settle keyOf (first :: rest) content) (first + 1) := by
      rw [settle_cons]
      by_cases taken : takes keyOf first content = true
      · rw [if_pos taken] at coversNext ⊢
        exact ⟨covers_trans proper coversNext (covers_of_takes smallFirst taken), coversNext⟩
      · rw [if_neg taken] at coversNext ⊢
        rw [Bool.not_eq_true] at taken
        exact ⟨coversNext, covers_trans proper coversNext (covers_of_not_takes proper taken)⟩
    refine ⟨coversBoth.1, fun sample member => ?_⟩
    rcases List.mem_cons.mp member with rfl | later
    · exact coversBoth.2
    · exact coversRest sample later

/-- Only the keys of the samples that are offered a slot matter to it. -/
theorem settle_congr {keyOf' : UInt64 → Float} {offered : UInt64 → Prop}
    (same : ∀ sample, offered sample → keyOf sample = keyOf' sample) {samples : List UInt64}
    (members : ∀ sample ∈ samples, offered sample) {content : UInt64}
    (source : content = vacant ∨ ∃ sample, offered sample ∧ content = sample + 1) :
    settle keyOf samples content = settle keyOf' samples content := by
  induction samples generalizing content with
  | nil => rfl
  | cons first rest inductionHypothesis =>
    have firstOffered := members first List.mem_cons_self
    have agree : takes keyOf first content = takes keyOf' first content := by
      rcases source with empty | ⟨sample, sampleOffered, holds⟩
      · simp [takes, empty]
      · rw [takes, takes, holds, UInt64.add_sub_cancel, same first firstOffered,
          same sample sampleOffered]
    rw [settle_cons, settle_cons, agree]
    apply inductionHypothesis (fun sample member => members sample (List.mem_cons_of_mem _ member))
    split
    · exact .inr ⟨first, firstOffered, rfl⟩
    · exact source

/-- Only the keys of the samples a pixel was offered to decide who is the best of them. -/
theorem isBest_congr {keyOf' : UInt64 → Float} {offered : UInt64 → Prop}
    (same : ∀ sample, offered sample → keyOf sample = keyOf' sample) {owner : Option UInt64}
    (best : IsBest keyOf' offered owner) : IsBest keyOf offered owner := by
  cases owner with
  | none => exact best
  | some sample =>
    refine ⟨best.1, fun other member => ?_⟩
    rw [same other member, same sample best.1]
    exact best.2 other member

/-- If their keys are numbers, the best of the samples that a slot is offered to comes to own
it, whatever their order is. -/
theorem isBest_settle {samples : List UInt64}
    (small : ∀ sample ∈ samples, sample < 0xffffffffffffffff)
    (numbers : ∀ sample ∈ samples, (keyOf sample).isNaN = false) :
    IsBest keyOf (· ∈ samples) (ownerOf (settle keyOf samples vacant)) := by
  -- Other samples may have a key that is no number; it is replaced, since it does not matter.
  let keyOf' : UInt64 → Float := fun sample => if sample ∈ samples then keyOf sample else 0.0
  have same : ∀ sample, sample ∈ samples → keyOf sample = keyOf' sample :=
    fun sample member => (if_pos member).symm
  have proper : ∀ sample, (keyOf' sample).isNaN = false := by
    intro sample
    by_cases member : sample ∈ samples
    · rw [← same sample member]
      exact numbers sample member
    · have replaced : keyOf' sample = 0.0 := if_neg member
      rw [replaced]
      decide
  rw [settle_congr same (fun _ member => member) (.inl rfl)]
  apply isBest_congr same
  apply isBest_ownerOf proper small
  · intro occupied
    rcases settle_source keyOf' samples vacant with kept | ⟨sample, member, holds⟩
    · exact absurd kept occupied
    · exact ⟨sample, member, holds⟩
  · exact (covers_settle proper small vacant).2

/-- A pixel outside of the table is refused. -/
theorem offer_outside {t : DepthTable} {o : Offer} (nowhere : t.place? o.x o.y = none) :
    t.offer keyOf o.x o.y o.sample = (false, t) := by
  simp [offer, nowhere]

/-- What is in the slot of a pixel inside decides on an offer. -/
theorem offer_inside {t : DepthTable} {o : Offer} {place : Nat} {content : UInt64}
    (found : t.place? o.x o.y = some place) (held : t.slots[place]? = some content) :
    t.offer keyOf o.x o.y o.sample =
      if takes keyOf o.sample content then
        (true, { t with slots := t.slots.setIfInBounds place (o.sample + 1) })
      else (false, t) := by
  simp [offer, found, held]

theorem offer_shape (t : DepthTable) (keyOf : UInt64 → Float) (o : Offer) :
    (t.offer keyOf o.x o.y o.sample).2.width = t.width ∧
      (t.offer keyOf o.x o.y o.sample).2.slots.size = t.slots.size := by
  unfold offer
  split
  · exact ⟨rfl, rfl⟩
  · split
    · exact ⟨rfl, rfl⟩
    · split
      · exact ⟨rfl, Array.size_setIfInBounds⟩
      · exact ⟨rfl, rfl⟩

/-- An offer lets the slot of its pixel settle on one more sample and changes no other slot. -/
theorem slots_offer (t : DepthTable) (keyOf : UInt64 → Float) (o : Offer) (place : Nat) :
    (t.offer keyOf o.x o.y o.sample).2.slots[place]? =
      t.slots[place]?.map
        (settle keyOf (if t.place? o.x o.y = some place then [o.sample] else [])) := by
  unfold offer
  cases found : t.place? o.x o.y with
  | none => simp [map_settle_nil]
  | some target =>
    have inside := (place?_eq_some_iff.mp found).2.2
    by_cases here : target = place
    · subst here
      by_cases taken : takes keyOf o.sample t.slots[target] = true
      · simp [inside, taken]
      · simp [inside, taken]
    · by_cases taken : takes keyOf o.sample t.slots[target] = true
      · simp [inside, taken, here, map_settle_nil]
      · simp [inside, taken, here, map_settle_nil]

/-- The samples that offers bring to a slot, in order. -/
def broughtTo (t : DepthTable) (place : Nat) (offers : List Offer) : List UInt64 :=
  offers.flatMap fun o => if t.place? o.x o.y = some place then [o.sample] else []

/-- Each slot settles on the samples that the offers bring to it. -/
theorem slots_offerAll (t : DepthTable) (keyOf : UInt64 → Float) (offers : List Offer)
    (place : Nat) :
    (t.offerAll keyOf offers).slots[place]? =
      t.slots[place]?.map (settle keyOf (t.broughtTo place offers)) := by
  induction offers generalizing t with
  | nil => simp [offerAll, broughtTo, map_settle_nil]
  | cons o rest inductionHypothesis =>
    have shape := t.offer_shape keyOf o
    have samePlaces : ∀ x y, (t.offer keyOf o.x o.y o.sample).2.place? x y = t.place? x y :=
      place?_congr shape.1 shape.2
    have later := inductionHypothesis (t.offer keyOf o.x o.y o.sample).2
    rw [offerAll] at later ⊢
    rw [List.foldl_cons, later, slots_offer, Option.map_map]
    congr 1
    funext content
    simp only [broughtTo, samePlaces, List.flatMap_cons, settle_append, Function.comp_apply]

theorem offerAll_shape (t : DepthTable) (keyOf : UInt64 → Float) (offers : List Offer) :
    (t.offerAll keyOf offers).width = t.width ∧
      (t.offerAll keyOf offers).slots.size = t.slots.size := by
  induction offers generalizing t with
  | nil => exact ⟨rfl, rfl⟩
  | cons o rest inductionHypothesis =>
    have shape := t.offer_shape keyOf o
    have later := inductionHypothesis (t.offer keyOf o.x o.y o.sample).2
    exact ⟨later.1.trans shape.1, later.2.trans shape.2⟩

/-- Offers bring to the slot of a pixel the samples that they offer this pixel to. -/
theorem mem_broughtTo {t : DepthTable} {x y : UInt64} {place : Nat}
    (found : t.place? x y = some place) {offers : List Offer} {sample : UInt64} :
    sample ∈ t.broughtTo place offers ↔ ⟨x, y, sample⟩ ∈ offers := by
  simp only [broughtTo, List.mem_flatMap]
  constructor
  · rintro ⟨o, member, brought⟩
    split at brought
    · next foundHere =>
      obtain ⟨column, row⟩ := place?_injective found foundHere
      rw [List.mem_singleton] at brought
      rw [column, row, brought]
      exact member
    · cases brought
  · intro member
    refine ⟨_, member, ?_⟩
    rw [if_pos found]
    exact List.mem_singleton_self sample

end DomainColoring.DepthTable
