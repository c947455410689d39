import DomainColoring.Proofs.Raster

/-!
# One raster over another, every place checked

`Raster.blit` asks for all rows of the upper raster, leaves out those that lie below the lower one,
and takes places as words, which may wrap around. Here the rows are copied one after another up to
the first that lies below, every number on the way has to be a word, and every pixel that is read or
written has to be there. On whole rasters this comes to the same, wherever the upper one lies: so
nothing wraps around, and no row is left out because its pixels are missing.
-/

namespace DomainColoring.Raster

/-- A number, if it is a word. -/
def word? (n : Nat) : Option Nat :=
  if n < 2 ^ 64 then some n else none

/-- Pixels of a raster with rows of another copied into them in order, up to the first that lies
below. There is no result if a number on the way is no word, or if pixels are missing. -/
def layRows? (r other : Raster) (left top visible : Nat) :
    List Nat → Array Color → Option (Array Color)
  | [], pixels => some pixels
  | row :: rows, pixels => do
    let y ← word? (top + row)
    if r.height.toNat ≤ y then some pixels
    else
      let line ← word? (y * r.width.toNat)
      let start ← word? (line + left)
      let stop ← word? (start + visible)
      let first ← word? (row * other.width.toNat)
      let last ← word? (first + visible)
      let source := other.pixels.extract first last
      if stop ≤ pixels.size ∧ last ≤ other.pixels.size then
        layRows? r other left top visible rows (overwrite pixels start source)
      else none

/-- The raster with another laid over it, if every number on the way is a word and no pixel is
missing. -/
def blit? (r other : Raster) (left top : UInt64) : Option Raster :=
  if r.width ≤ left then some r
  else
    let visible := min other.width.toNat (r.width.toNat - left.toNat)
    (layRows? r other left.toNat top.toNat visible (List.range other.rowCount) r.pixels).map
      fun pixels => { r with pixels := pixels }

variable {r other : Raster} {left top visible : UInt64} {pixels : Array Color} {first count : Nat}

theorem word?_of_lt {n : Nat} (isWord : n < 2 ^ 64) : word? n = some n :=
  if_pos isWord

/-- Rows that lie below are not copied. -/
theorem foldl_copyRow_below (below : r.height.toNat ≤ top.toNat + first) :
    (List.range' first count).foldl (copyRow r other left top visible) pixels = pixels := by
  induction count generalizing first with
  | zero => rfl
  | succ count inductionHypothesis =>
    have unchanged : copyRow r other left top visible pixels first = pixels :=
      if_neg fun copied => absurd copied.1 (Nat.not_lt.mpr below)
    rw [List.range'_succ, List.foldl_cons, unchanged]
    exact inductionHypothesis (by omega)

/-- A row that does not lie below is copied, and its places are words. -/
theorem copyRow_eq (whole : r.Whole) (otherWhole : other.Whole) {row : Nat}
    (inside : left < r.width) (fits : left.toNat + visible.toNat ≤ r.width.toNat)
    (narrow : visible.toNat ≤ other.width.toNat) (size : pixels.size = r.pixels.size)
    (within : row < other.height.toNat) (above : top.toNat + row < r.height.toNat) :
    (top.toNat + row) * r.width.toNat + left.toNat + visible.toNat ≤ pixels.size ∧
      row * other.width.toNat + visible.toNat ≤ other.pixels.size ∧
      copyRow r other left top visible pixels row =
        overwrite pixels ((top.toNat + row) * r.width.toNat + left.toNat)
          (other.pixels.extract (row * other.width.toNat)
            (row * other.width.toNat + visible.toNat)) := by
  have rowEnd := row_le other.width.toNat within
  have lineEnd := row_le r.width.toNat above
  have start := whole.index (UInt64.lt_iff_toNat_lt.mp inside) above
  rw [UInt64.ofNat_toNat] at start
  rw [← otherWhole.size] at rowEnd
  rw [← whole.size, ← size] at lineEnd
  refine ⟨by omega, by omega, ?_⟩
  have sourceSize : (other.pixels.extract (row * other.width.toNat)
      (row * other.width.toNat + visible.toNat)).size = visible.toNat := by
    rw [Array.size_extract]
    omega
  unfold copyRow
  simp only [start]
  exact if_pos ⟨above, by omega, sourceSize⟩

/-- Copying rows with every place checked comes to the same as copying them. The first row is the
left top corner, or follows one that does not lie below: so its place is a word. -/
theorem layRows?_eq (whole : r.Whole) (otherWhole : other.Whole) (inside : left < r.width)
    (fits : left.toNat + visible.toNat ≤ r.width.toNat)
    (narrow : visible.toNat ≤ other.width.toNat) (size : pixels.size = r.pixels.size)
    (within : first + count ≤ other.height.toNat)
    (reached : first = 0 ∨ top.toNat + first ≤ r.height.toNat) :
    layRows? r other left.toNat top.toNat visible.toNat (List.range' first count) pixels =
      some ((List.range' first count).foldl (copyRow r other left top visible) pixels) := by
  induction count generalizing first pixels with
  | zero => rfl
  | succ count inductionHypothesis =>
    have yWord : top.toNat + first < 2 ^ 64 := by
      have topWord := top.toNat_lt
      have heightWord := r.height.toNat_lt
      omega
    rw [List.range'_succ, layRows?, word?_of_lt yWord]
    by_cases below : r.height.toNat ≤ top.toNat + first
    · rw [← List.range'_succ, foldl_copyRow_below below]
      simp [below]
    · rw [Nat.not_le] at below
      have counted := whole.counted
      have otherCounted := otherWhole.counted
      obtain ⟨room, available, copied⟩ :=
        copyRow_eq whole otherWhole inside fits narrow size (by omega) below
      have roomWords := room
      rw [size, whole.size] at roomWords
      have availableWords := available
      rw [otherWhole.size] at availableWords
      simp only [Option.bind_eq_bind, Option.bind_some, if_neg (Nat.not_le.mpr below)]
      rw [word?_of_lt (by omega), Option.bind_some, word?_of_lt (by omega), Option.bind_some,
        word?_of_lt (by omega), Option.bind_some, word?_of_lt (by omega), Option.bind_some,
        word?_of_lt (by omega), Option.bind_some, if_pos ⟨room, available⟩, List.foldl_cons,
        copied]
      refine inductionHypothesis ?_ (by omega) (.inr (by omega))
      rw [size_overwrite, size]

/-- On whole rasters, every number that is needed to lay one over the other is a word, and every
pixel that is read or written is there. -/
theorem blit?_eq (whole : r.Whole) (otherWhole : other.Whole) (left top : UInt64) :
    r.blit? other left top = some (r.blit other left top) := by
  by_cases inside : left < r.width
  · have visible := UInt64.toNat_min other.width (r.width - left)
    rw [UInt64.toNat_sub_of_le _ _ (UInt64.le_of_lt inside)] at visible
    have within := UInt64.lt_iff_toNat_lt.mp inside
    have rows : other.rowCount ≤ other.height.toNat := by
      rcases Nat.eq_zero_or_pos other.width.toNat with empty | wide
      · simp [rowCount, otherWhole.size, empty]
      · exact (rowCount_eq otherWhole wide).le
    have laid : layRows? r other left.toNat top.toNat (min other.width (r.width - left)).toNat
        (List.range' 0 other.rowCount) r.pixels = _ :=
      layRows?_eq whole otherWhole inside (by omega) (by omega) rfl (by omega) (.inl rfl)
    rw [visible, ← List.range_eq_range'] at laid
    rw [blit?, if_neg (UInt64.not_le.mpr inside), blit_eq inside]
    exact congrArg (Option.map _) laid
  · rw [blit?, if_pos (UInt64.not_lt.mp inside), blit, if_neg inside]

/-- A whole raster that another was laid over, with its left top corner in any column and row, has
the sides and as many pixels as before. In each column and row there is the pixel of the upper
raster if it has one there, and the old pixel otherwise. Every number on the way is a word, and
every pixel that is read or written is there. -/
theorem blit_pixelwise (whole : r.Whole) (otherWhole : other.Whole) (left top : UInt64) :
    (r.blit other left top).width = r.width ∧ (r.blit other left top).height = r.height ∧
      (r.blit other left top).pixels.size = r.pixels.size ∧
      (∀ x < r.width, ∀ y < r.height,
        (∃ pixel, (r.blit other left top).get x y = .ok (some pixel)) ∧
        (r.blit other left top).get x y =
          if (left.toNat ≤ x.toNat ∧ x.toNat < left.toNat + other.width.toNat) ∧
              top.toNat ≤ y.toNat ∧ y.toNat < top.toNat + other.height.toNat then
            other.get (x - left) (y - top)
          else r.get x y) ∧
      r.blit? other left top = some (r.blit other left top) := by
  have after := whole.blit other left top
  have width := width_blit r other left top
  have height := height_blit r other left top
  refine ⟨width, height, ?_, fun x column y row => ⟨?_, ?_⟩, blit?_eq whole otherWhole left top⟩
  · rw [after.size, whole.size, width, height]
  · exact after.exists_get (by rwa [width]) (by rwa [height])
  · rw [get_blit whole otherWhole column row]
    exact if_congr and_comm rfl rfl

/-- Only the corner of the upper raster lies on the lower one. -/
theorem blit_pixelwise_corner :
    let canvas := filled ⟨4, 3, by decide⟩ .lightGray
    let patch := filled ⟨2, 2, by decide⟩ ⟨0, 0, 0⟩
    canvas.Whole ∧ patch.Whole ∧ (canvas.blit patch 3 2).get 3 2 = .ok (some ⟨0, 0, 0⟩) ∧
      (canvas.blit patch 3 2).get 0 2 = .ok (some .lightGray) ∧
      canvas.blit? patch 3 (0 - 1) = some canvas := by
  intro canvas patch
  have whole : canvas.Whole := whole_filled _ .lightGray
  have patchWhole : patch.Whole := whole_filled _ ⟨0, 0, 0⟩
  obtain ⟨-, -, -, pixels, -⟩ := blit_pixelwise whole patchWhole 3 2
  obtain ⟨width, height, -, unchanged, checked⟩ := blit_pixelwise whole patchWhole 3 (0 - 1)
  have same : canvas.blit patch 3 (0 - 1) = canvas := by
    refine (whole.blit patch 3 (0 - 1)).ext whole width height fun x column y row => ?_
    rw [width] at column
    rw [height] at row
    rw [(unchanged x column y row).2, if_neg]
    rintro ⟨-, least, -⟩
    exact absurd (UInt64.lt_iff_toNat_lt.mp row) (Nat.not_lt.mpr (Nat.le_trans (by decide) least))
  refine ⟨whole, patchWhole, ?_, ?_, checked.trans (congrArg some same)⟩
  · rw [(pixels 3 (by decide) 2 (by decide)).2]
    rfl
  · rw [(pixels 0 (by decide) 2 (by decide)).2]
    rfl

end DomainColoring.Raster
