import DomainColoring.Proofs.DepthTable.Sequence

/-!
# Offers made at the same time

An offer is not one step for those who make offers at the same time: it reads its slot, and
then tries to exchange what it has read for its own sample, until that succeeds or it sees an
owner that the sample does not precede. Other calls may move between any two of its steps, and
an exchange may fail although the slot has not changed.

`Shared.Sound` relates what every call has seen, however old, and every call that is done to
the present content of the slots. Every step keeps it, and when all calls are done it says who
owns each pixel. No scheduler is assumed, and nothing is said about how many steps a call takes.
-/

namespace DomainColoring.DepthTable

/-- How far a call has come. -/
inductive Stage where
  | called
  /-- It has seen this content in its slot and has to decide on it. -/
  | seen (content : UInt64)
  | exchanged
  | returned (took : Bool)
deriving DecidableEq

/-- A table together with the calls that work on it. -/
structure Shared (n : Nat) where
  table : DepthTable
  stages : Fin n → Stage

namespace Shared

/-- A table of which no call has begun. -/
def start (table : DepthTable) (n : Nat) : Shared n :=
  ⟨table, fun _ => .called⟩

/-- One call comes to another stage. -/
def move {n : Nat} (s : Shared n) (k : Fin n) (stage : Stage) : Shared n :=
  { s with stages := Function.update s.stages k stage }

/-- A sample is put into a slot. -/
def put {n : Nat} (s : Shared n) (place : Nat) (sample : UInt64) : Shared n :=
  { s with table := { s.table with slots := s.table.slots.setIfInBounds place (sample + 1) } }

/-- Every call has returned. -/
def Done {n : Nat} (s : Shared n) : Prop :=
  ∀ k, ∃ took, s.stages k = .returned took

/-- One step of one call. The exchange succeeds only if the slot still holds what was seen;
`retry` is the exchange that fails, with or without a change of the slot. -/
inductive Step (keyOf : UInt64 → Float) {n : Nat} (calls : Fin n → Offer) (k : Fin n) :
    Shared n → Shared n → Prop where
  | outside {s} (fresh : s.stages k = .called)
      (nowhere : s.table.place? (calls k).x (calls k).y = none) :
      Step keyOf calls k s (s.move k (.returned false))
  | load {s place content} (fresh : s.stages k = .called)
      (found : s.table.place? (calls k).x (calls k).y = some place)
      (held : s.table.slots[place]? = some content) :
      Step keyOf calls k s (s.move k (.seen content))
  | lose {s content} (seen : s.stages k = .seen content)
      (refused : takes keyOf (calls k).sample content = false) :
      Step keyOf calls k s (s.move k (.returned false))
  | exchange {s place content} (seen : s.stages k = .seen content)
      (taken : takes keyOf (calls k).sample content = true)
      (found : s.table.place? (calls k).x (calls k).y = some place)
      (held : s.table.slots[place]? = some content) :
      Step keyOf calls k s ((s.put place (calls k).sample).move k .exchanged)
  | retry {s place content actual} (seen : s.stages k = .seen content)
      (taken : takes keyOf (calls k).sample content = true)
      (found : s.table.place? (calls k).x (calls k).y = some place)
      (held : s.table.slots[place]? = some actual) :
      Step keyOf calls k s (s.move k (.seen actual))
  | finish {s} (exchanged : s.stages k = .exchanged) :
      Step keyOf calls k s (s.move k (.returned true))

/-- Any number of steps, of any calls in any order. -/
inductive Run (keyOf : UInt64 → Float) {n : Nat} (calls : Fin n → Offer) :
    Shared n → Shared n → Prop where
  | refl {s} : Run keyOf calls s s
  | step {s t u k} (prior : Run keyOf calls s t) (last : Step keyOf calls k t u) :
      Run keyOf calls s u

variable {keyOf : UInt64 → Float} {n : Nat} {calls : Fin n → Offer} {k : Fin n}
  {s t : Shared n}

@[simp] theorem move_table (s : Shared n) (k : Fin n) (stage : Stage) :
    (s.move k stage).table = s.table := rfl

@[simp] theorem move_stages_self (s : Shared n) (k : Fin n) (stage : Stage) :
    (s.move k stage).stages k = stage := by
  simp [move]

theorem move_stages_of_ne (s : Shared n) {k j : Fin n} (other : j ≠ k) (stage : Stage) :
    (s.move k stage).stages j = s.stages j := by
  simp [move, other]

@[simp] theorem put_stages (s : Shared n) (place : Nat) (sample : UInt64) :
    (s.put place sample).stages = s.stages := rfl

theorem place?_put (s : Shared n) (place : Nat) (sample x y : UInt64) :
    (s.put place sample).table.place? x y = s.table.place? x y := by
  apply place?_congr
  · rfl
  · simp [put]

/-- A step moves its own call only. -/
theorem Step.stages_of_ne (step : Step keyOf calls k s t) {j : Fin n} (other : j ≠ k) :
    t.stages j = s.stages j := by
  cases step with
  | outside fresh nowhere => exact move_stages_of_ne s other _
  | load fresh found held => exact move_stages_of_ne s other _
  | lose seen refused => exact move_stages_of_ne s other _
  | exchange seen taken found held => exact move_stages_of_ne _ other _
  | retry seen taken found held => exact move_stages_of_ne s other _
  | finish exchanged => exact move_stages_of_ne s other _

/-- A step leaves the table alone, or puts the sample of its call into its slot. -/
theorem Step.table_cases (step : Step keyOf calls k s t) :
    t.table = s.table ∨
    ∃ place content, s.table.place? (calls k).x (calls k).y = some place ∧
      s.table.slots[place]? = some content ∧
      takes keyOf (calls k).sample content = true ∧
      t.table = (s.put place (calls k).sample).table := by
  cases step with
  | outside fresh nowhere => exact .inl rfl
  | load fresh found held => exact .inl rfl
  | lose seen refused => exact .inl rfl
  | exchange seen taken found held => exact .inr ⟨_, _, found, held, taken, rfl⟩
  | retry seen taken found held => exact .inl rfl
  | finish exchanged => exact .inl rfl

/-- A step keeps the shape of the table. -/
theorem Step.shape (step : Step keyOf calls k s t) :
    t.table.width = s.table.width ∧ t.table.slots.size = s.table.slots.size := by
  rcases step.table_cases with same | ⟨place, content, -, -, -, changed⟩
  · rw [same]
    exact ⟨rfl, rfl⟩
  · rw [changed]
    exact ⟨rfl, Array.size_setIfInBounds⟩

theorem Step.place?_eq (step : Step keyOf calls k s t) (x y : UInt64) :
    t.table.place? x y = s.table.place? x y :=
  place?_congr step.shape.1 step.shape.2 x y

/-- What a step does to one slot: nothing, or, to the slot of its call, the exchange. -/
theorem Step.slot_cases (step : Step keyOf calls k s t) (place : Nat) :
    t.table.slots[place]? = s.table.slots[place]? ∨
    ∃ content, s.table.place? (calls k).x (calls k).y = some place ∧
      s.table.slots[place]? = some content ∧
      takes keyOf (calls k).sample content = true ∧
      t.table.slots[place]? = some ((calls k).sample + 1) := by
  rcases step.table_cases with same | ⟨target, content, found, held, taken, changed⟩
  · left
    rw [same]
  · rw [changed]
    by_cases here : place = target
    · subst here
      have inside := (Array.getElem?_eq_some_iff.mp held).1
      right
      refine ⟨content, found, held, taken, ?_⟩
      simp [put, inside]
    · have elsewhere : target ≠ place := fun equal => here equal.symm
      left
      simp [put, elsewhere]

/-- After a step, a slot covers what was in it before. -/
theorem Step.covers (small : ∀ k, (calls k).sample < 0xffffffffffffffff)
    (step : Step keyOf calls k s t) {place : Nat} {content : UInt64}
    (held : s.table.slots[place]? = some content) :
    ∃ content', t.table.slots[place]? = some content' ∧ Covers keyOf content' content := by
  rcases step.slot_cases place with same | ⟨old, found, heldOld, taken, changed⟩
  · exact ⟨content, same.trans held, covers_refl content⟩
  · have equal : content = old := Option.some.inj (held.symm.trans heldOld)
    subst equal
    exact ⟨_, changed, covers_of_takes (small k) taken⟩

/-- The slot of a call covers a content. -/
def Reached (keyOf : UInt64 → Float) (table : DepthTable) (call : Offer) (content : UInt64) :
    Prop :=
  ∃ place current, table.place? call.x call.y = some place ∧
    table.slots[place]? = some current ∧ Covers keyOf current content

theorem Reached.step (proper : ∀ s, (keyOf s).isNaN = false)
    (small : ∀ k, (calls k).sample < 0xffffffffffffffff)
    (step : Step keyOf calls k s t) {call : Offer} {content : UInt64}
    (reached : Reached keyOf s.table call content) : Reached keyOf t.table call content := by
  obtain ⟨place, current, found, held, covers⟩ := reached
  obtain ⟨current', held', better⟩ := step.covers small held
  rw [← step.place?_eq] at found
  exact ⟨place, current', found, held', covers_trans proper better covers⟩

/-- What holds of a call at a stage: what it has seen, or its own sample once it has decided,
is covered by its slot. -/
def CallSound (keyOf : UInt64 → Float) (table : DepthTable) (call : Offer) : Stage → Prop
  | .called => True
  | .seen content => Reached keyOf table call content
  | .exchanged => Reached keyOf table call (call.sample + 1)
  | .returned took =>
    table.place? call.x call.y = none ∧ took = false ∨ Reached keyOf table call (call.sample + 1)

/-- The invariant of calls that work on one table. -/
structure Sound (keyOf : UInt64 → Float) (calls : Fin n → Offer) (extent : Extent)
    (s : Shared n) : Prop where
  width_eq : s.table.width = extent.width
  size_eq : s.table.slots.size = extent.size
  /-- Owners come from calls for their own pixel. -/
  owned : ∀ {place content}, s.table.slots[place]? = some content → content ≠ vacant →
    ∃ k, s.table.place? (calls k).x (calls k).y = some place ∧
      content = (calls k).sample + 1
  callSound : ∀ k, CallSound keyOf s.table (calls k) (s.stages k)

theorem sound_start (extent : Extent) : Sound keyOf calls extent (start (empty extent) n) where
  width_eq := rfl
  size_eq := slots_size_empty extent
  owned := by
    intro place content held occupied
    exact absurd (slots_empty held) occupied
  callSound := fun _ => trivial

theorem Step.owned (step : Step keyOf calls k s t)
    (before : ∀ {place content}, s.table.slots[place]? = some content → content ≠ vacant →
      ∃ k, s.table.place? (calls k).x (calls k).y = some place ∧
        content = (calls k).sample + 1) {place : Nat} {content : UInt64}
    (held : t.table.slots[place]? = some content) (occupied : content ≠ vacant) :
    ∃ k, t.table.place? (calls k).x (calls k).y = some place ∧
      content = (calls k).sample + 1 := by
  simp only [step.place?_eq]
  rcases step.slot_cases place with same | ⟨old, found, -, -, changed⟩
  · exact before (same.symm.trans held) occupied
  · exact ⟨k, found, Option.some.inj (held.symm.trans changed)⟩

/-- A step of a call leaves the call sound. -/
theorem Step.callSound_self (proper : ∀ s, (keyOf s).isNaN = false)
    (step : Step keyOf calls k s t)
    (before : CallSound keyOf s.table (calls k) (s.stages k)) :
    CallSound keyOf t.table (calls k) (t.stages k) := by
  cases step with
  | outside fresh nowhere =>
    rw [move_stages_self]
    exact .inl ⟨nowhere, rfl⟩
  | load fresh found held =>
    rw [move_stages_self]
    exact ⟨_, _, found, held, covers_refl _⟩
  | lose seen refused =>
    rw [seen] at before
    obtain ⟨place, current, found, held, covers⟩ := before
    rw [move_stages_self]
    -- The owner may have changed since it was seen, but only to one that wins against it.
    exact .inr ⟨place, current, found, held,
      covers_trans proper covers (covers_of_not_takes proper refused)⟩
  | @exchange place content seen taken found held =>
    have inside := (Array.getElem?_eq_some_iff.mp held).1
    rw [move_stages_self]
    refine ⟨place, (calls k).sample + 1, (place?_put _ _ _ _ _).trans found, ?_, covers_refl _⟩
    simp [put, inside]
  | retry seen taken found held =>
    rw [move_stages_self]
    exact ⟨_, _, found, held, covers_refl _⟩
  | finish exchanged =>
    rw [exchanged] at before
    rw [move_stages_self]
    exact .inr before

/-- A step of a call leaves every other call sound. -/
theorem Step.callSound_of_ne (proper : ∀ s, (keyOf s).isNaN = false)
    (small : ∀ k, (calls k).sample < 0xffffffffffffffff) (step : Step keyOf calls k s t)
    {j : Fin n} (other : j ≠ k) (before : CallSound keyOf s.table (calls j) (s.stages j)) :
    CallSound keyOf t.table (calls j) (t.stages j) := by
  rw [step.stages_of_ne other]
  cases stage : s.stages j with
  | called => trivial
  | seen content =>
    rw [stage] at before
    exact Reached.step proper small step before
  | exchanged =>
    rw [stage] at before
    exact Reached.step proper small step before
  | returned took =>
    rw [stage] at before
    rcases before with ⟨nowhere, refused⟩ | reached
    · exact .inl ⟨(step.place?_eq _ _).trans nowhere, refused⟩
    · exact .inr (Reached.step proper small step reached)

theorem Sound.step (proper : ∀ s, (keyOf s).isNaN = false)
    (small : ∀ k, (calls k).sample < 0xffffffffffffffff) {extent : Extent}
    (sound : Sound keyOf calls extent s) (step : Step keyOf calls k s t) :
    Sound keyOf calls extent t where
  width_eq := step.shape.1.trans sound.width_eq
  size_eq := step.shape.2.trans sound.size_eq
  owned := step.owned sound.owned
  callSound := by
    intro j
    by_cases own : j = k
    · subst own
      exact step.callSound_self proper (sound.callSound j)
    · exact step.callSound_of_ne proper small own (sound.callSound j)

/-- The invariant holds however far the calls have come. -/
theorem Sound.of_run (proper : ∀ s, (keyOf s).isNaN = false)
    (small : ∀ k, (calls k).sample < 0xffffffffffffffff) {extent : Extent}
    (run : Run keyOf calls (start (empty extent) n) s) : Sound keyOf calls extent s := by
  induction run with
  | refl => exact sound_start extent
  | step prior last inductionHypothesis => exact inductionHypothesis.step proper small last

/-- When all calls are done, each pixel belongs to the best sample it was offered to. -/
theorem Sound.isBest (proper : ∀ s, (keyOf s).isNaN = false)
    (small : ∀ k, (calls k).sample < 0xffffffffffffffff) {extent : Extent}
    (sound : Sound keyOf calls extent s) (done : s.Done) {x y : UInt64} {place : Nat}
    (found : s.table.place? x y = some place) :
    ∃ owner, s.table.owners[place]? = some owner ∧
      IsBest keyOf (fun sample => ∃ k, calls k = ⟨x, y, sample⟩) owner := by
  have inside := (place?_eq_some_iff.mp found).2.2
  have held : s.table.slots[place]? = some s.table.slots[place] := Array.getElem?_eq_getElem inside
  refine ⟨ownerOf s.table.slots[place], by rw [getElem?_owners, held, Option.map_some], ?_⟩
  apply isBest_ownerOf proper
  · rintro sample ⟨k, offered⟩
    have bound := small k
    rwa [offered] at bound
  · intro occupied
    obtain ⟨k, foundHere, tagged⟩ := sound.owned held occupied
    obtain ⟨column, row⟩ := place?_injective found foundHere
    refine ⟨(calls k).sample, ⟨k, ?_⟩, tagged⟩
    rw [column, row]
  · rintro sample ⟨k, offered⟩
    obtain ⟨took, returned⟩ := done k
    have callSound := sound.callSound k
    rw [returned, offered] at callSound
    rcases callSound with ⟨nowhere, -⟩ | ⟨place', current, foundHere, heldHere, covers⟩
    · rw [found] at nowhere
      cases nowhere
    · have same : place' = place := Option.some.inj (foundHere.symm.trans found)
      subst same
      rw [held] at heldHere
      cases heldHere
      exact covers

/-- A call for a pixel outside of the table has returned that it did not take it. -/
theorem Sound.outside {extent : Extent} (sound : Sound keyOf calls extent s)
    (done : s.Done) (nowhere : s.table.place? (calls k).x (calls k).y = none) :
    s.stages k = .returned false := by
  obtain ⟨took, returned⟩ := done k
  have callSound := sound.callSound k
  rw [returned] at callSound ⊢
  rcases callSound with ⟨-, refused⟩ | ⟨place, current, found, -⟩
  · rw [refused]
  · rw [nowhere] at found
    cases found

theorem Sound.place?_eq {extent : Extent} (sound : Sound keyOf calls extent s)
    (x y : UInt64) : s.table.place? x y = (empty extent).place? x y :=
  place?_congr sound.width_eq (sound.size_eq.trans (slots_size_empty extent).symm) x y

/-- The table that the calls leave does not depend on how their steps were mixed. -/
theorem Sound.table_unique (proper : ∀ s, (keyOf s).isNaN = false)
    (small : ∀ k, (calls k).sample < 0xffffffffffffffff) {extent : Extent}
    (sound : Sound keyOf calls extent s) (done : s.Done)
    (otherSound : Sound keyOf calls extent t) (otherDone : t.Done) :
    t.table = s.table := by
  have width_eq := otherSound.width_eq.trans sound.width_eq.symm
  have size_eq := otherSound.size_eq.trans sound.size_eq.symm
  have slots_eq : t.table.slots = s.table.slots := by
    apply Array.ext size_eq
    intro place insideOther inside
    have wide : 0 < s.table.width.toNat := by
      rcases Nat.eq_zero_or_pos s.table.width.toNat with narrow | wide
      · rw [sound.width_eq] at narrow
        rw [sound.size_eq, Extent.size, narrow, Nat.zero_mul] at inside
        exact absurd inside (Nat.not_lt_zero _)
      · exact wide
    have few : s.table.slots.size ≤ 2 ^ 64 := by
      rw [sound.size_eq]
      exact Nat.le_of_lt extent.counted
    obtain ⟨x, y, found⟩ := exists_place? few wide inside
    have foundOther : t.table.place? x y = some place := by
      rw [otherSound.place?_eq, ← sound.place?_eq, found]
    obtain ⟨owner, held, best⟩ := sound.isBest proper small done found
    obtain ⟨owner', held', best'⟩ := otherSound.isBest proper small otherDone foundOther
    have owner_eq := isBest_unique proper best' best
    subst owner_eq
    apply ownerOf_injective
    simp only [getElem?_owners, Array.getElem?_eq_getElem inside,
      Array.getElem?_eq_getElem insideOther, Option.map_some, Option.some.injEq] at held held'
    rw [held, held']
  obtain ⟨⟨otherWidth, otherSlots⟩, otherStages⟩ := t
  obtain ⟨⟨ownWidth, ownSlots⟩, stages⟩ := s
  cases width_eq
  cases slots_eq
  rfl

/-- A step replaces an owner only by one that precedes it. -/
theorem Step.owner_cases (small : ∀ k, (calls k).sample < 0xffffffffffffffff)
    (step : Step keyOf calls k s t) {place : Nat} {before : UInt64}
    {after : Option UInt64} (heldBefore : s.table.owners[place]? = some (some before))
    (heldAfter : t.table.owners[place]? = some after) :
    after = some before ∨
    after = some (calls k).sample ∧
      precedes (keyOf (calls k).sample, (calls k).sample) (keyOf before, before) = true := by
  rw [getElem?_owners] at heldBefore heldAfter
  rcases step.slot_cases place with same | ⟨old, found, heldOld, taken, changed⟩
  · left
    rw [same, heldBefore] at heldAfter
    exact (Option.some.inj heldAfter).symm
  · right
    rw [heldOld] at heldBefore
    rw [changed] at heldAfter
    have owner : ownerOf old = some before := Option.some.inj heldBefore
    have tagged : ownerOf ((calls k).sample + 1) = after := Option.some.inj heldAfter
    have occupied : old ≠ vacant := by
      rintro rfl
      cases owner
    rw [ownerOf, if_neg occupied] at owner
    rw [ownerOf_tag (small k)] at tagged
    refine ⟨tagged.symm, ?_⟩
    rw [← Option.some.inj owner]
    simpa [takes, occupied] using taken

/-- Steps of one call after another are a run. -/
theorem Run.of_steps (steps : Relation.ReflTransGen (Step keyOf calls k) s t) :
    Run keyOf calls s t := by
  induction steps with
  | refl => exact .refl
  | tail prior last inductionHypothesis => exact .step inductionHypothesis last

variable (keyOf calls) in
/-- A call that nobody disturbs is one offer. -/
theorem exists_steps_offer (fresh : s.stages k = .called) :
    ∃ t, Relation.ReflTransGen (Step keyOf calls k) s t ∧
      t.table = (s.table.offer keyOf (calls k).x (calls k).y (calls k).sample).2 ∧
      t.stages k =
        .returned (s.table.offer keyOf (calls k).x (calls k).y (calls k).sample).1 ∧
      ∀ j, j ≠ k → t.stages j = s.stages j := by
  cases found : s.table.place? (calls k).x (calls k).y with
  | none =>
    have outside : Step keyOf calls k s (s.move k (.returned false)) := .outside fresh found
    rw [offer_outside found]
    exact ⟨_, .single outside, rfl, move_stages_self s k _,
      fun j other => outside.stages_of_ne other⟩
  | some place =>
    have inside := (place?_eq_some_iff.mp found).2.2
    have held : s.table.slots[place]? = some s.table.slots[place] :=
      Array.getElem?_eq_getElem inside
    have load : Step keyOf calls k s (s.move k (.seen s.table.slots[place])) :=
      .load fresh found held
    rw [offer_inside found held]
    by_cases taken : takes keyOf (calls k).sample s.table.slots[place] = true
    · have exchange : Step keyOf calls k (s.move k (.seen s.table.slots[place]))
          (((s.move k (.seen s.table.slots[place])).put place (calls k).sample).move k
            .exchanged) :=
        .exchange (move_stages_self _ _ _) taken found held
      have finish : Step keyOf calls k
          (((s.move k (.seen s.table.slots[place])).put place (calls k).sample).move k
            .exchanged) _ :=
        .finish (move_stages_self _ _ _)
      rw [if_pos taken]
      refine ⟨_, ((Relation.ReflTransGen.single load).tail exchange).tail finish, rfl,
        move_stages_self _ k _, fun j other => ?_⟩
      rw [finish.stages_of_ne other, exchange.stages_of_ne other, load.stages_of_ne other]
    · have lose : Step keyOf calls k (s.move k (.seen s.table.slots[place])) _ :=
        .lose (move_stages_self _ _ _) (Bool.not_eq_true _ ▸ taken)
      rw [if_neg taken]
      refine ⟨_, (Relation.ReflTransGen.single load).tail lose, rfl, move_stages_self _ k _,
        fun j other => ?_⟩
      rw [lose.stages_of_ne other, load.stages_of_ne other]

theorem Run.trans {u : Shared n} (first : Run keyOf calls s t) (second : Run keyOf calls t u) :
    Run keyOf calls s u := by
  induction second with
  | refl => exact first
  | step prior last inductionHypothesis => exact .step inductionHypothesis last

variable (keyOf calls) in
/-- Making offers one after another is one way of making them at the same time. -/
theorem exists_run_offerAll (order : List (Fin n)) (distinct : order.Nodup)
    (fresh : ∀ k ∈ order, s.stages k = .called) :
    ∃ t, Run keyOf calls s t ∧ t.table = s.table.offerAll keyOf (order.map calls) ∧
      (∀ k ∈ order, ∃ took, t.stages k = .returned took) ∧
      ∀ k, k ∉ order → t.stages k = s.stages k := by
  induction order generalizing s with
  | nil => exact ⟨s, .refl, rfl, by simp, fun _ _ => rfl⟩
  | cons first rest inductionHypothesis =>
    obtain ⟨notAgain, distinctRest⟩ := List.nodup_cons.mp distinct
    obtain ⟨t, steps, table, returned, others⟩ :=
      exists_steps_offer keyOf calls (fresh first List.mem_cons_self)
    have freshRest : ∀ k ∈ rest, t.stages k = .called := by
      intro k member
      have other : k ≠ first := fun same => notAgain (same ▸ member)
      rw [others k other]
      exact fresh k (List.mem_cons_of_mem _ member)
    obtain ⟨u, runRest, tableRest, returnedRest, othersRest⟩ :=
      inductionHypothesis distinctRest freshRest
    refine ⟨u, (Run.of_steps steps).trans runRest, ?_, ?_, ?_⟩
    · rw [tableRest, table]
      rfl
    · intro k member
      rcases List.mem_cons.mp member with rfl | later
      · exact ⟨_, (othersRest k notAgain).trans returned⟩
      · exact returnedRest k later
    · intro k absent
      obtain ⟨other, later⟩ := not_or.mp (mt List.mem_cons.mpr absent)
      rw [othersRest k later, others k other]

/-- Offers made one after another, each call once, leave the table that the calls leave when
they work at the same time. -/
theorem Sound.offerAll_eq (proper : ∀ s, (keyOf s).isNaN = false)
    (small : ∀ k, (calls k).sample < 0xffffffffffffffff) {extent : Extent}
    (sound : Sound keyOf calls extent s) (done : s.Done) {order : List (Fin n)}
    (once : order.Perm (List.finRange n)) :
    (empty extent).offerAll keyOf (order.map calls) = s.table := by
  have distinct : order.Nodup := once.nodup_iff.mpr (List.nodup_finRange n)
  obtain ⟨t, run, table, returned, -⟩ :=
    exists_run_offerAll keyOf calls (s := start (empty extent) n) order distinct
      (fun _ _ => rfl)
  have allReturned : t.Done := fun k => returned k (once.mem_iff.mpr (List.mem_finRange k))
  have same := sound.table_unique proper small done (Sound.of_run proper small run) allReturned
  rw [← same, table]
  rfl

/-- Calls that offer pixels of one table at the same time, in whatever way their steps are
mixed, leave each pixel to the sample with the greatest key of those it was offered to, and of
equal keys to the least; a pixel that was not offered stays without owner. A call for a pixel
outside returns that it took nothing and changes nothing. An owner is only ever replaced by one
that precedes it, and the table is the one that the same offers leave one after another, in any
order. This holds for all sides that there is a table for; `exists_make_iff` says which they
are. -/
theorem concurrent_offers {width height : UInt64} {table : DepthTable}
    (made : make width height = .ok table) (keyOf : UInt64 → Float)
    (proper : ∀ s, (keyOf s).isNaN = false) {n : Nat} (calls : Fin n → Offer)
    (small : ∀ k, (calls k).sample < 0xffffffffffffffff) {final : Shared n}
    (run : Run keyOf calls (start table n) final) (done : final.Done) :
    final.table.owners.size = width.toNat * height.toNat ∧
    (∀ x < width, ∀ y < height, ∃ owner,
      final.table.owners[y.toNat * width.toNat + x.toNat]? = some owner ∧
        IsBest keyOf (fun sample => ∃ k, calls k = ⟨x, y, sample⟩) owner) ∧
    (∀ k, ¬ ((calls k).x < width ∧ (calls k).y < height) → final.stages k = .returned false) ∧
    (∀ (s t : Shared n) (k : Fin n), Run keyOf calls (start table n) s →
      Step keyOf calls k s t →
      (¬ ((calls k).x < width ∧ (calls k).y < height) → t.table = s.table) ∧
      ∀ (place : Nat) (before : UInt64) (after : Option UInt64),
        s.table.owners[place]? = some (some before) → t.table.owners[place]? = some after →
        after ≠ some before →
        ∃ owner, after = some owner ∧
          precedes (keyOf owner, owner) (keyOf before, before) = true) ∧
    (∀ other : Shared n, Run keyOf calls (start table n) other → other.Done →
      other.table = final.table) ∧
    ∀ order : List (Fin n), order.Perm (List.finRange n) →
      table.offerAll keyOf (order.map calls) = final.table := by
  obtain ⟨extent, rfl, rfl, rfl⟩ := make_eq_ok_iff.mp made
  have sound := Sound.of_run proper small run
  have nowhere : ∀ k, ¬ ((calls k).x < extent.width ∧ (calls k).y < extent.height) →
      (empty extent).place? (calls k).x (calls k).y = none := by
    intro k outside
    rw [place?_empty, if_neg outside]
  refine ⟨?_, ?_, ?_, ?_, ?_, ?_⟩
  · rw [size_owners, sound.size_eq, Extent.size]
  · intro x column y row
    have found := place?_empty extent x y
    rw [if_pos ⟨column, row⟩] at found
    exact sound.isBest proper small done ((sound.place?_eq x y).trans found)
  · intro k outside
    exact sound.outside done ((sound.place?_eq _ _).trans (nowhere k outside))
  · intro s t k reached step
    have soundThen := Sound.of_run proper small reached
    constructor
    · intro outside
      rcases step.table_cases with same | ⟨place, content, found, -⟩
      · exact same
      · rw [soundThen.place?_eq, nowhere k outside] at found
        cases found
    · intro place before after heldBefore heldAfter changed
      rcases step.owner_cases small heldBefore heldAfter with same | ⟨replaced, first⟩
      · exact absurd same changed
      · exact ⟨_, replaced, first⟩
  · intro other otherRun otherDone
    exact sound.table_unique proper small done (Sound.of_run proper small otherRun) otherDone
  · intro order once
    exact sound.offerAll_eq proper small done once

/-- Two calls for the same pixel and one for a pixel outside of a table of two. -/
def threeCalls (k : Fin 3) : Offer :=
  match k with
  | 0 => ⟨1, 0, 7⟩
  | 1 => ⟨1, 0, 3⟩
  | 2 => ⟨5, 0, 9⟩

/-- Both calls see the pixel vacant and both keys are equal; the exchange that comes too late
fails, and so does one that comes in time. -/
theorem concurrent_offers_tie :
    ∃ table, make 2 1 = .ok table ∧ ∃ final : Shared 3,
      Run (fun _ => 1.0) threeCalls (start table 3) final ∧ final.Done ∧
      ∃ owner, final.table.owners[1]? = some owner ∧
        IsBest (fun _ => 1.0) (fun sample => ∃ k, threeCalls k = ⟨1, 0, sample⟩) owner := by
  let keyOf : UInt64 → Float := fun _ => 1.0
  let table := empty ⟨2, 1, by decide⟩
  have made : make 2 1 = .ok table := rfl
  let s₁ := (start table 3).move 0 (.seen vacant)
  let s₂ := s₁.move 1 (.seen vacant)
  let s₃ := s₂.move 1 (.seen vacant)
  let s₄ := (s₃.put 1 3).move 1 .exchanged
  let s₅ := s₄.move 0 (.seen 4)
  let s₆ := s₅.move 2 (.returned false)
  let s₇ := s₆.move 0 (.returned false)
  let s₈ := s₇.move 1 (.returned true)
  have step₁ : Step keyOf threeCalls 0 (start table 3) s₁ := .load rfl rfl rfl
  have step₂ : Step keyOf threeCalls 1 s₁ s₂ := .load rfl rfl rfl
  have step₃ : Step keyOf threeCalls 1 s₂ s₃ := .retry rfl rfl rfl rfl
  have step₄ : Step keyOf threeCalls 1 s₃ s₄ := .exchange rfl rfl rfl rfl
  have step₅ : Step keyOf threeCalls 0 s₄ s₅ := .retry rfl rfl rfl rfl
  have step₆ : Step keyOf threeCalls 2 s₅ s₆ := .outside rfl rfl
  have step₇ : Step keyOf threeCalls 0 s₆ s₇ := .lose rfl (by decide)
  have step₈ : Step keyOf threeCalls 1 s₇ s₈ := .finish rfl
  have run : Run keyOf threeCalls (start table 3) s₈ :=
    .step (.step (.step (.step (.step (.step (.step (.step .refl step₁) step₂) step₃) step₄)
      step₅) step₆) step₇) step₈
  have done : s₈.Done := by
    intro k
    match k with
    | 0 => exact ⟨false, rfl⟩
    | 1 => exact ⟨true, rfl⟩
    | 2 => exact ⟨false, rfl⟩
  refine ⟨table, made, s₈, run, done, ?_⟩
  exact (concurrent_offers made keyOf (fun _ => by decide) threeCalls (by decide) run done).2.1
    1 (by decide) 0 (by decide)

end Shared
end DomainColoring.DepthTable
