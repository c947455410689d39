import DomainColoring.Proofs.DepthTable.Interleaving

/-!
# What an offer answers

An offer answers whether it put its sample into the slot of the pixel. That is not whether the
sample owns the pixel afterwards: a sample that is offered a pixel it owns does not precede itself,
so it is refused and goes on owning the pixel. `offer_answers` says that this is the only
difference, and tells it from the offers that were made before. `Shared.returnsAlone_iff` relates
the answer to the steps that a call takes, failed exchanges among them, if no other call takes any
between them; nothing is said of what a call answers while others move.
-/

namespace DomainColoring.DepthTable

/-- The owner of a pixel; a pixel outside of the table has none. -/
def owner? (t : DepthTable) (x y : UInt64) : Option UInt64 :=
  (t.place? x y).bind fun place => t.owners[place]?.join

variable {keyOf : UInt64 → Float} {t : DepthTable} {o : Offer}

theorem owner?_outside {x y : UInt64} (nowhere : t.place? x y = none) : t.owner? x y = none := by
  rw [owner?, nowhere, Option.bind_none]

theorem owner?_inside {x y content : UInt64} {place : Nat} (found : t.place? x y = some place)
    (held : t.slots[place]? = some content) : t.owner? x y = ownerOf content := by
  rw [owner?, found, Option.bind_some, getElem?_owners, held]
  rfl

/-- A pixel is outside, or its slot has a content. -/
theorem place?_cases (t : DepthTable) (x y : UInt64) :
    t.place? x y = none ∨
      ∃ place content, t.place? x y = some place ∧ t.slots[place]? = some content := by
  cases found : t.place? x y with
  | none => exact .inl rfl
  | some place =>
    have inside := (place?_eq_some_iff.mp found).2.2
    exact .inr ⟨place, t.slots[place], rfl, Array.getElem?_eq_getElem inside⟩

section Answer

variable {u : DepthTable} {took : Bool}

/-- An offer is refused and leaves the table alone, or puts its sample into the slot of its
pixel. -/
theorem offer_cases (answered : t.offer keyOf o.x o.y o.sample = (took, u)) :
    took = false ∧ u = t ∨
    took = true ∧ ∃ place content, t.place? o.x o.y = some place ∧
      t.slots[place]? = some content ∧ takes keyOf o.sample content = true ∧
      u = { t with slots := t.slots.setIfInBounds place (o.sample + 1) } := by
  rcases t.place?_cases o.x o.y with nowhere | ⟨place, content, found, held⟩
  · rw [offer_outside nowhere, Prod.mk.injEq] at answered
    exact .inl ⟨answered.1.symm, answered.2.symm⟩
  · rw [offer_inside found held] at answered
    by_cases taken : takes keyOf o.sample content = true
    · rw [if_pos taken, Prod.mk.injEq] at answered
      exact .inr ⟨answered.1.symm, place, content, found, held, taken, answered.2.symm⟩
    · rw [if_neg taken, Prod.mk.injEq] at answered
      exact .inl ⟨answered.1.symm, answered.2.symm⟩

/-- An offer that is refused changes nothing. -/
theorem eq_of_refused (answered : t.offer keyOf o.x o.y o.sample = (false, u)) : u = t := by
  rcases offer_cases answered with ⟨-, same⟩ | ⟨taken, -⟩
  · exact same
  · cases taken

/-- An offer changes no owner but that of its pixel. -/
theorem owner?_of_ne (answered : t.offer keyOf o.x o.y o.sample = (took, u)) {x y : UInt64}
    (other : ¬ (x = o.x ∧ y = o.y)) : u.owner? x y = t.owner? x y := by
  rcases offer_cases answered with ⟨-, same⟩ | ⟨-, target, -, foundTarget, -, -, changed⟩
  · rw [same]
  · have shape := t.offer_shape keyOf o
    rw [answered] at shape
    have place_eq : u.place? x y = t.place? x y := place?_congr shape.1 shape.2 x y
    rcases t.place?_cases x y with nowhere | ⟨place, content, found, held⟩
    · rw [owner?_outside nowhere, owner?_outside (place_eq.trans nowhere)]
    · have elsewhere : target ≠ place := by
        rintro rfl
        exact other (place?_injective found foundTarget)
      have kept : u.slots[place]? = some content := by
        rw [changed, Array.getElem?_setIfInBounds_ne elsewhere, held]
      rw [owner?_inside found held, owner?_inside (place_eq.trans found) kept]

/-- A sample that takes a pixel owns it. -/
theorem owner?_of_taken (small : o.sample < 0xffffffffffffffff)
    (answered : t.offer keyOf o.x o.y o.sample = (true, u)) :
    u.owner? o.x o.y = some o.sample := by
  rcases offer_cases answered with ⟨refused, -⟩ | ⟨-, place, content, found, held, -, changed⟩
  · cases refused
  · have shape := t.offer_shape keyOf o
    rw [answered] at shape
    have place_eq : u.place? o.x o.y = t.place? o.x o.y := place?_congr shape.1 shape.2 o.x o.y
    have inside := (Array.getElem?_eq_some_iff.mp held).1
    have put : u.slots[place]? = some (o.sample + 1) := by
      rw [changed, Array.getElem?_setIfInBounds_self_of_lt inside]
    rw [owner?_inside (place_eq.trans found) put, ownerOf_tag small]

/-- A sample that owns a pixel is refused it. -/
theorem refused_of_owner? (proper : ∀ s, (keyOf s).isNaN = false)
    (answered : t.offer keyOf o.x o.y o.sample = (took, u))
    (owned : t.owner? o.x o.y = some o.sample) : took = false := by
  rcases offer_cases answered with ⟨refused, -⟩ | ⟨-, place, content, found, held, taken, -⟩
  · exact refused
  · rw [owner?_inside found held] at owned
    rw [not_takes_own proper owned] at taken
    cases taken

/-- The answer says who owns the pixel afterwards, unless the sample owned it before. -/
theorem right_answer_iff (proper : ∀ s, (keyOf s).isNaN = false)
    (small : o.sample < 0xffffffffffffffff)
    (answered : t.offer keyOf o.x o.y o.sample = (took, u)) :
    (took = true ↔ u.owner? o.x o.y = some o.sample) ↔ t.owner? o.x o.y ≠ some o.sample := by
  cases took with
  | true =>
    have owned := owner?_of_taken small answered
    have fresh : t.owner? o.x o.y ≠ some o.sample := by
      intro ownedBefore
      cases refused_of_owner? proper answered ownedBefore
    exact ⟨fun _ => fresh, fun _ => ⟨fun _ => owned, fun _ => rfl⟩⟩
  | false =>
    rw [eq_of_refused answered]
    exact ⟨fun right owned => Bool.false_ne_true (right.mpr owned),
      fun fresh => ⟨fun taken => (Bool.false_ne_true taken).elim, fun owned => (fresh owned).elim⟩⟩

end Answer

section History

variable (proper : ∀ s, (keyOf s).isNaN = false) {extent : Extent} {offers : List Offer}
  (small : ∀ p ∈ offers, p.sample < 0xffffffffffffffff)

variable (keyOf) in
theorem place?_offerAll (offers : List Offer) (x y : UInt64) :
    ((empty extent).offerAll keyOf offers).place? x y = (empty extent).place? x y :=
  place?_congr (offerAll_shape _ keyOf offers).1 (offerAll_shape _ keyOf offers).2 x y

include proper small

/-- After offers one after another, a pixel inside belongs to the best sample it was offered to. -/
theorem isBest_owner? {x y : UInt64} {place : Nat}
    (found : (empty extent).place? x y = some place) :
    IsBest keyOf (fun sample => ⟨x, y, sample⟩ ∈ offers)
      (((empty extent).offerAll keyOf offers).owner? x y) := by
  have inside := (place?_eq_some_iff.mp found).2.2
  have vacant : (empty extent).slots[place]? = some vacant := by
    have held := Array.getElem?_eq_getElem inside
    rwa [slots_empty held] at held
  have held := slots_offerAll (empty extent) keyOf offers place
  rw [vacant, Option.map_some] at held
  have brought : (· ∈ (empty extent).broughtTo place offers) =
      fun sample => ⟨x, y, sample⟩ ∈ offers :=
    funext fun _ => propext (mem_broughtTo found)
  rw [owner?_inside ((place?_offerAll keyOf offers x y).trans found) held, ← brought]
  apply isBest_settle
  · intro sample member
    exact small _ ((mem_broughtTo found).mp member)
  · exact fun sample _ => proper sample

/-- Who owns a pixel can be told from the offers: the best of the samples it was offered to, if it
lies inside. -/
theorem owner?_eq_some_iff {x y sample : UInt64} :
    ((empty extent).offerAll keyOf offers).owner? x y = some sample ↔
      ((empty extent).place? x y).isSome ∧
        IsBest keyOf (fun sample => ⟨x, y, sample⟩ ∈ offers) (some sample) := by
  cases found : (empty extent).place? x y with
  | none =>
    rw [owner?_outside ((place?_offerAll keyOf offers x y).trans found)]
    simp
  | some place =>
    have best := isBest_owner? proper small found
    constructor
    · intro owned
      rw [owned] at best
      exact ⟨rfl, best⟩
    · rintro ⟨-, bestToo⟩
      exact isBest_unique proper best bestToo

/-- The answer to an offer can be told from the offers before: the pixel lies inside, and the sample
precedes all that were offered it. -/
theorem taken_iff (o : Offer) :
    (((empty extent).offerAll keyOf offers).offer keyOf o.x o.y o.sample).1 = true ↔
      ((empty extent).place? o.x o.y).isSome ∧ ∀ p ∈ offers, p.x = o.x → p.y = o.y →
        precedes (keyOf o.sample, o.sample) (keyOf p.sample, p.sample) = true := by
  rcases ((empty extent).offerAll keyOf offers).place?_cases o.x o.y with
    nowhere | ⟨place, content, found, held⟩
  · rw [offer_outside nowhere, ← place?_offerAll keyOf offers, nowhere]
    simp
  · have best :=
      isBest_owner? proper small ((place?_offerAll keyOf offers o.x o.y).symm.trans found)
    rw [owner?_inside found held] at best
    have decided : (((empty extent).offerAll keyOf offers).offer keyOf o.x o.y o.sample).1 =
        takes keyOf o.sample content := by
      rw [offer_inside found held]
      cases takes keyOf o.sample content <;> rfl
    rw [decided, takes_iff, ← place?_offerAll keyOf offers, found]
    constructor
    · intro first
      refine ⟨rfl, ?_⟩
      rintro ⟨x, y, sample⟩ member rfl rfl
      -- What precedes the owner precedes all that the owner wins against.
      cases owned : ownerOf content with
      | none =>
        rw [owned] at best
        exact absurd member (best sample)
      | some owner =>
        rw [owned] at best
        exact precedes_of_wins proper (first owner owned)
          ((wins_iff proper).mpr (best.2 sample member))
    · rintro ⟨-, all⟩ owner owned
      rw [owned] at best
      exact all ⟨o.x, o.y, owner⟩ best.1 rfl rfl

end History

namespace Shared

variable {n : Nat} {calls : Fin n → Offer} {k : Fin n} {s u : Shared n}

/-- A call is made, takes all of its steps with none of another call between them, and returns. -/
def ReturnsAlone (keyOf : UInt64 → Float) (before : DepthTable) (o : Offer) (took : Bool)
    (after : DepthTable) : Prop :=
  ∃ (n : Nat) (calls : Fin n → Offer) (k : Fin n) (s u : Shared n), calls k = o ∧
    s.table = before ∧ s.stages k = .called ∧ Relation.ReflTransGen (Step keyOf calls k) s u ∧
    u.stages k = .returned took ∧ u.table = after

/-- What holds of a call at a stage if nobody disturbs it: before the exchange the table is still
the same, and what the call has seen is there, and after it the offer is made. -/
def Undisturbed (keyOf : UInt64 → Float) (before : DepthTable) (o : Offer) (table : DepthTable) :
    Stage → Prop
  | .called => table = before
  | .seen content => table = before ∧
      ∃ place, before.place? o.x o.y = some place ∧ before.slots[place]? = some content
  | .exchanged => before.offer keyOf o.x o.y o.sample = (true, table)
  | .returned took => before.offer keyOf o.x o.y o.sample = (took, table)

theorem Undisturbed.step {before : DepthTable}
    (sound : Undisturbed keyOf before (calls k) s.table (s.stages k))
    (step : Step keyOf calls k s u) :
    Undisturbed keyOf before (calls k) u.table (u.stages k) := by
  cases step with
  | outside fresh nowhere =>
    rw [fresh] at sound
    rw [move_stages_self]
    change s.table = before at sound
    subst sound
    exact offer_outside nowhere
  | load fresh found held =>
    rw [fresh] at sound
    rw [move_stages_self]
    change s.table = before at sound
    subst sound
    exact ⟨rfl, _, found, held⟩
  | lose seen refused =>
    rw [seen] at sound
    rw [move_stages_self]
    obtain ⟨same, place, found, held⟩ := sound
    subst same
    refine (offer_inside found held).trans ?_
    rw [if_neg (Bool.not_eq_true _ ▸ refused)]
    rfl
  | @exchange place content seen taken found held =>
    rw [seen] at sound
    rw [move_stages_self]
    obtain ⟨same, -⟩ := sound
    subst same
    refine (offer_inside found held).trans ?_
    rw [if_pos taken]
    rfl
  | retry seen taken found held =>
    rw [seen] at sound
    rw [move_stages_self]
    obtain ⟨same, -⟩ := sound
    subst same
    exact ⟨rfl, _, found, held⟩
  | finish exchanged =>
    rw [exchanged] at sound
    rw [move_stages_self]
    exact sound

theorem Undisturbed.of_steps (fresh : s.stages k = .called)
    (steps : Relation.ReflTransGen (Step keyOf calls k) s u) :
    Undisturbed keyOf s.table (calls k) u.table (u.stages k) := by
  induction steps with
  | refl =>
    rw [fresh]
    exact rfl
  | tail _ last inductionHypothesis => exact inductionHypothesis.step last

/-- A call that nobody disturbs returns the answer of the offer and leaves its table, however often
its exchange fails, and it can always return. -/
theorem returnsAlone_iff {before after : DepthTable} {o : Offer} {took : Bool} :
    ReturnsAlone keyOf before o took after ↔
      before.offer keyOf o.x o.y o.sample = (took, after) := by
  constructor
  · rintro ⟨n, calls, k, s, u, rfl, rfl, fresh, steps, returned, rfl⟩
    have sound := Undisturbed.of_steps fresh steps
    rw [returned] at sound
    exact sound
  · intro offered
    obtain ⟨u, steps, table, returned, -⟩ :=
      exists_steps_offer keyOf (fun _ : Fin 1 => o) (s := ⟨before, fun _ => .called⟩) (k := 0) rfl
    rw [offered] at table returned
    exact ⟨1, _, 0, _, u, rfl, rfl, rfl, steps, returned, table⟩

end Shared

/-- After any offers one after another, the answer to one more says whether its sample owns the
pixel afterwards, unless the sample owned it before: then the offer is refused. In all cases the
answer is whether the pixel lies inside and the sample precedes all that were offered it before. An
offer that is refused changes nothing, and none changes the owner of another pixel. All this holds
of what a call returns and leaves that nobody disturbs. -/
theorem offer_answers {width height : UInt64} {table : DepthTable}
    (made : make width height = .ok table) (keyOf : UInt64 → Float)
    (proper : ∀ s, (keyOf s).isNaN = false) {offers : List Offer} {o : Offer}
    (small : ∀ p ∈ o :: offers, p.sample < 0xffffffffffffffff) {before after : DepthTable}
    {took : Bool} (reached : before = table.offerAll keyOf offers)
    (answered : before.offer keyOf o.x o.y o.sample = (took, after)) :
    ((took = true ↔ after.owner? o.x o.y = some o.sample) ↔
      before.owner? o.x o.y ≠ some o.sample) ∧
    (before.owner? o.x o.y = some o.sample ↔
      (table.place? o.x o.y).isSome ∧
        IsBest keyOf (fun sample => ⟨o.x, o.y, sample⟩ ∈ offers) (some o.sample)) ∧
    (took = true ↔
      (table.place? o.x o.y).isSome ∧ ∀ p ∈ offers, p.x = o.x → p.y = o.y →
        precedes (keyOf o.sample, o.sample) (keyOf p.sample, p.sample) = true) ∧
    (took = false → after = before) ∧
    (∀ x y, ¬ (x = o.x ∧ y = o.y) → after.owner? x y = before.owner? x y) ∧
    ∀ took' after', Shared.ReturnsAlone keyOf before o took' after' ↔
      took' = took ∧ after' = after := by
  obtain ⟨extent, -, -, rfl⟩ := make_eq_ok_iff.mp made
  obtain ⟨smallOwn, smallOffers⟩ := List.forall_mem_cons.mp small
  refine ⟨right_answer_iff proper smallOwn answered, ?_, ?_, ?_, ?_, ?_⟩
  · rw [reached]
    exact owner?_eq_some_iff proper smallOffers
  · rw [← taken_iff proper smallOffers o, ← reached, answered]
  · rintro rfl
    exact eq_of_refused answered
  · exact fun x y other => owner?_of_ne answered other
  · intro took' after'
    rw [Shared.returnsAlone_iff, answered, Prod.mk.injEq]
    exact ⟨fun same => ⟨same.1.symm, same.2.symm⟩, fun same => ⟨same.1.symm, same.2.symm⟩⟩

/-- Two samples with equal keys and one beside the table; the lesser of the two is offered once
more. -/
theorem offer_answers_again :
    ∃ table before : DepthTable, make 2 1 = .ok table ∧
      before = table.offerAll (fun _ => 1.0) [⟨1, 0, 7⟩, ⟨1, 0, 3⟩, ⟨5, 0, 9⟩] ∧
      before.offer (fun _ => 1.0) 1 0 3 = (false, before) ∧
      before.owner? 1 0 = some 3 ∧
      ¬ (false = true ↔ before.owner? 1 0 = some 3) ∧
      Shared.ReturnsAlone (fun _ => 1.0) before ⟨1, 0, 3⟩ false before := by
  let table := empty ⟨2, 1, by decide⟩
  have made : make 2 1 = .ok table := rfl
  -- The table is given a name, so that it is worked out in the next three steps only.
  obtain ⟨before, reached⟩ : ∃ before : DepthTable,
      before = table.offerAll (fun _ => 1.0) [⟨1, 0, 7⟩, ⟨1, 0, 3⟩, ⟨5, 0, 9⟩] := ⟨_, rfl⟩
  have refused : (before.offer (fun _ => 1.0) 1 0 3).1 = false := by
    rw [reached]
    decide
  have found : before.place? 1 0 = some 1 := by
    rw [reached]
    decide
  have held : before.slots[1]? = some 4 := by
    rw [reached]
    decide
  obtain ⟨after, answered⟩ : ∃ after, before.offer (fun _ => 1.0) 1 0 3 = (false, after) :=
    ⟨_, Prod.ext refused rfl⟩
  have same : after = before := eq_of_refused (o := ⟨1, 0, 3⟩) answered
  rw [same] at answered
  have owned : before.owner? 1 0 = some 3 := owner?_inside found held
  obtain ⟨right, -, -, -, -, alone⟩ := offer_answers made (fun _ => 1.0)
    (fun _ => by decide) (o := ⟨1, 0, 3⟩) (by decide) reached answered
  exact ⟨table, before, made, reached, answered, owned, fun same => right.mp same owned,
    (alone false before).mpr ⟨rfl, rfl⟩⟩

/-- A sample that owns the only pixel is refused when it is offered the pixel again, and owns it
afterwards. -/
theorem offer_refuses_owner :
    ∃ table, make 1 1 = .ok table ∧
      ¬ (((table.offerAll (fun _ => 1.0) [⟨0, 0, 0⟩]).offer (fun _ => 1.0) 0 0 0).1 = true ↔
        ((table.offerAll (fun _ => 1.0) [⟨0, 0, 0⟩]).offer (fun _ => 1.0) 0 0 0).2.owner? 0 0 =
          some 0) := by
  let table := empty ⟨1, 1, by decide⟩
  have made : make 1 1 = .ok table := rfl
  let before := table.offerAll (fun _ => 1.0) [⟨0, 0, 0⟩]
  let after := (before.offer (fun _ => 1.0) 0 0 0).2
  have refused : (before.offer (fun _ => 1.0) 0 0 0).1 = false := by decide
  have found : after.place? 0 0 = some 0 := by decide
  have held : after.slots[0]? = some 1 := by decide
  refine ⟨table, made, ?_⟩
  intro right
  cases refused.symm.trans (right.mpr (owner?_inside found held))

end DomainColoring.DepthTable
