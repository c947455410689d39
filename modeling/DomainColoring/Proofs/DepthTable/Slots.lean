import DomainColoring.DepthTable
import Mathlib

/-!
# Slots of a table

Which slot stands for a pixel, and that no two pixels share one. A table keeps its width and
its number of slots for good, so these facts hold of it at any time.
-/

namespace DomainColoring.DepthTable

theorem place?_eq_some_iff {t : DepthTable} {x y : UInt64} {place : Nat} :
    t.place? x y = some place ↔
      x < t.width ∧ y.toNat * t.width.toNat + x.toNat = place ∧ place < t.slots.size := by
  rw [place?]
  constructor
  · intro found
    split at found
    · next inside =>
      cases found
      exact ⟨inside.1, rfl, inside.2⟩
    · cases found
  · rintro ⟨column, rfl, inside⟩
    rw [if_pos ⟨column, inside⟩]

/-- Two tables of the same shape have the same slots for all pixels. -/
theorem place?_congr {t u : DepthTable} (width : t.width = u.width)
    (size : t.slots.size = u.slots.size) (x y : UInt64) : t.place? x y = u.place? x y := by
  simp only [place?, width, size]

/-- A slot stands for one pixel only. -/
theorem place?_injective {t : DepthTable} {x y x' y' : UInt64} {place : Nat}
    (found : t.place? x y = some place) (found' : t.place? x' y' = some place) :
    x = x' ∧ y = y' := by
  obtain ⟨column, rfl, -⟩ := place?_eq_some_iff.mp found
  obtain ⟨column', same, -⟩ := place?_eq_some_iff.mp found'
  rw [UInt64.lt_iff_toNat_lt] at column column'
  have rows : y'.toNat = y.toNat := by
    have quotients := congrArg (· / t.width.toNat) same
    have positive : 0 < t.width.toNat := by omega
    simpa [Nat.mul_comm _ t.width.toNat, Nat.mul_add_div positive,
      Nat.div_eq_of_lt column, Nat.div_eq_of_lt column'] using quotients
  have columns : x'.toNat = x.toNat := by
    rw [rows] at same
    omega
  exact ⟨(UInt64.toNat_inj.mp columns).symm, (UInt64.toNat_inj.mp rows).symm⟩

/-- Every slot stands for a pixel, in a table with as many slots as words can count. -/
theorem exists_place? {t : DepthTable} (small : t.slots.size ≤ 2 ^ 64) (wide : 0 < t.width.toNat)
    {place : Nat} (inside : place < t.slots.size) : ∃ x y, t.place? x y = some place := by
  have row : place / t.width.toNat < 2 ^ 64 := by
    have smaller := Nat.div_le_self place t.width.toNat
    omega
  have column := Nat.mod_lt place wide
  have bound := t.width.toNat_lt
  refine ⟨UInt64.ofNat (place % t.width.toNat), UInt64.ofNat (place / t.width.toNat), ?_⟩
  rw [place?_eq_some_iff, UInt64.lt_iff_toNat_lt,
    UInt64.toNat_ofNat_of_lt' (Nat.lt_trans column bound), UInt64.toNat_ofNat_of_lt' row]
  exact ⟨column, Nat.div_add_mod' _ _, inside⟩

theorem size_owners (t : DepthTable) : t.owners.size = t.slots.size := by
  simp [owners]

/-- The owner of a pixel is the one in its slot. -/
theorem getElem?_owners (t : DepthTable) (place : Nat) :
    t.owners[place]? = t.slots[place]?.map ownerOf := by
  simp [owners]

theorem slots_size_empty (extent : Extent) : (empty extent).slots.size = extent.size := by
  simp [empty]

theorem slots_empty {extent : Extent} {place : Nat} {content : UInt64}
    (found : (empty extent).slots[place]? = some content) : content = vacant := by
  rw [empty, Array.getElem?_replicate] at found
  split at found
  · exact (Option.some.inj found).symm
  · cases found

/-- A table has a slot for each pixel of the raster and for nothing else. -/
theorem place?_empty (extent : Extent) (x y : UInt64) :
    (empty extent).place? x y =
      if x < extent.width ∧ y < extent.height then some (y.toNat * extent.width.toNat + x.toNat)
      else none := by
  rw [place?, slots_size_empty, Extent.size]
  apply if_congr _ rfl rfl
  change x < extent.width ∧ y.toNat * extent.width.toNat + x.toNat <
    extent.width.toNat * extent.height.toNat ↔ _
  rw [UInt64.lt_iff_toNat_lt, UInt64.lt_iff_toNat_lt]
  constructor
  · rintro ⟨column, inside⟩
    refine ⟨column, Nat.lt_of_not_le fun below => ?_⟩
    have more := Nat.mul_le_mul_right extent.width.toNat below
    rw [Nat.mul_comm extent.height.toNat] at more
    omega
  · rintro ⟨column, row⟩
    refine ⟨column, ?_⟩
    have rows := Nat.mul_le_mul_right extent.width.toNat (Nat.succ_le_of_lt row)
    rw [Nat.succ_mul, Nat.mul_comm extent.height.toNat] at rows
    omega

/-- A table for two sides is the empty one of their extent. -/
theorem make_eq_ok_iff {width height : UInt64} {t : DepthTable} :
    make width height = .ok t ↔
      ∃ extent : Extent, extent.width = width ∧ extent.height = height ∧ t = empty extent :=
  Extent.map_make_eq_ok_iff

/-- There is a table for two sides exactly if a word counts the pixels. -/
theorem exists_make_iff {width height : UInt64} :
    (∃ t, make width height = .ok t) ↔ width.toNat * height.toNat < 2 ^ 64 := by
  refine Iff.trans ?_ Extent.exists_make_iff
  simp only [make_eq_ok_iff, Extent.make_eq_ok_iff]
  constructor
  · rintro ⟨-, extent, width_eq, height_eq, -⟩
    exact ⟨extent, width_eq, height_eq⟩
  · rintro ⟨extent, width_eq, height_eq⟩
    exact ⟨_, extent, width_eq, height_eq, rfl⟩

end DomainColoring.DepthTable
