/-!
# Extents

The number of pixels of a raster is the product of two words, and has to be a word itself. Where it
is none the program stops, and does not go on with a product that wrapped around. So there are
tables and rasters for extents only, and an extent carries the proof that its pixels are counted.
For how many pixels there is memory is left open.
-/

namespace DomainColoring

/-- The program stops, since a number that has to be a word is none. -/
structure Overflow
deriving DecidableEq, Repr

/-- The sides of a rectangle, the pixels of which a word can count. -/
@[ext]
structure Extent where
  width : UInt64
  height : UInt64
  counted : width.toNat * height.toNat < Nat.pow 2 64
deriving DecidableEq

namespace Extent

/-- The extent with two sides, unless the number of its pixels is no word. -/
def make (width height : UInt64) : Except Overflow Extent :=
  if counted : width.toNat * height.toNat < Nat.pow 2 64 then .ok ⟨width, height, counted⟩
  else .error {}

/-- The number of pixels. -/
def size (e : Extent) : Nat :=
  e.width.toNat * e.height.toNat

variable {width height : UInt64} {e : Extent}

theorem make_eq_ok_iff : make width height = .ok e ↔ e.width = width ∧ e.height = height := by
  unfold make
  split
  · rw [Except.ok.injEq]
    constructor
    · rintro rfl
      exact ⟨rfl, rfl⟩
    · rintro ⟨rfl, rfl⟩
      rfl
  · next uncounted =>
    refine ⟨nofun, ?_⟩
    rintro ⟨rfl, rfl⟩
    exact absurd e.counted uncounted

theorem make_eq_error_iff {o : Overflow} :
    make width height = .error o ↔ Nat.pow 2 64 ≤ width.toNat * height.toNat := by
  unfold make
  split
  · next counted => exact ⟨nofun, fun uncounted => absurd counted (Nat.not_lt.mpr uncounted)⟩
  · next uncounted => exact ⟨fun _ => Nat.not_lt.mp uncounted, fun _ => rfl⟩

/-- What is made for two sides is made for their extent. -/
theorem map_make_eq_ok_iff {α : Type} {f : Extent → α} {a : α} :
    (make width height).map f = .ok a ↔
      ∃ e : Extent, e.width = width ∧ e.height = height ∧ a = f e := by
  constructor
  · intro made
    cases sides : make width height with
    | error overflow =>
      rw [sides] at made
      cases made
    | ok e =>
      rw [sides] at made
      obtain ⟨width_eq, height_eq⟩ := make_eq_ok_iff.mp sides
      exact ⟨e, width_eq, height_eq, (Except.ok.inj made).symm⟩
  · rintro ⟨e, width_eq, height_eq, rfl⟩
    rw [make_eq_ok_iff.mpr ⟨width_eq, height_eq⟩]
    rfl

/-- There is an extent with two sides exactly if a word counts its pixels. -/
theorem exists_make_iff :
    (∃ e, make width height = .ok e) ↔ width.toNat * height.toNat < Nat.pow 2 64 := by
  constructor
  · rintro ⟨e, made⟩
    obtain ⟨rfl, rfl⟩ := make_eq_ok_iff.mp made
    exact e.counted
  · intro counted
    exact ⟨⟨width, height, counted⟩, make_eq_ok_iff.mpr ⟨rfl, rfl⟩⟩

end Extent
end DomainColoring
