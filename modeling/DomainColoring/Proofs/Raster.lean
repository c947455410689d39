import DomainColoring.Proofs.Word
import DomainColoring.Raster

/-!
# Pixels of rasters

A raster that is whole has a pixel for each column and row, and so few of them that their places
are words. Laying one whole raster over another copies exactly the pixels that come to lie in it.
-/

namespace DomainColoring.Raster

/-- There are as many pixels as the sides ask for, and words can count them. -/
structure Whole (r : Raster) : Prop where
  size : r.pixels.size = r.width.toNat * r.height.toNat
  counted : r.width.toNat * r.height.toNat < 2 ^ 64

variable {r other : Raster} {left top x y : UInt64}

theorem index_lt {width height column row : Nat} (inside : column < width) (above : row < height) :
    row * width + column < width * height := by
  have rows := Nat.mul_le_mul_right width (Nat.succ_le_of_lt above)
  rw [Nat.succ_mul, Nat.mul_comm height] at rows
  omega

/-- Inside of a raster, the place of a pixel is a word that did not wrap around. -/
theorem Whole.index (whole : r.Whole) {column row : Nat} (inside : column < r.width.toNat)
    (above : row < r.height.toNat) :
    (UInt64.ofNat row * r.width + UInt64.ofNat column).toNat = row * r.width.toNat + column := by
  have least := index_lt inside above
  have counted := whole.counted
  have columnWord := Nat.lt_trans inside r.width.toNat_lt
  have rowWord := Nat.lt_trans above r.height.toNat_lt
  rw [Word.toNat_index_eq_mod, UInt64.toNat_ofNat_of_lt' columnWord,
    UInt64.toNat_ofNat_of_lt' rowWord, Nat.mod_eq_of_lt (Nat.lt_trans least counted)]

theorem get_outside (outside : r.width ≤ x) : r.get x y = .ok none :=
  if_pos outside

/-- Whatever the row is, a pixel is looked up if its place is a word. -/
theorem get_eq (column : x < r.width)
    (isWord : y.toNat * r.width.toNat + x.toNat < 2 ^ 64) :
    r.get x y = .ok r.pixels[y.toNat * r.width.toNat + x.toNat]? := by
  rw [get, if_neg (UInt64.not_le.mpr column)]
  exact if_pos isWord

/-- Otherwise there is no answer. -/
theorem get_overflow (column : x < r.width)
    (tooFar : 2 ^ 64 ≤ y.toNat * r.width.toNat + x.toNat) : r.get x y = .error {} := by
  rw [get, if_neg (UInt64.not_le.mpr column)]
  exact if_neg (Nat.not_lt.mpr tooFar)

theorem Whole.get_eq (whole : r.Whole) (column : x < r.width) (row : y < r.height) :
    r.get x y = .ok r.pixels[y.toNat * r.width.toNat + x.toNat]? := by
  have place := index_lt (UInt64.lt_iff_toNat_lt.mp column) (UInt64.lt_iff_toNat_lt.mp row)
  exact Raster.get_eq column (Nat.lt_trans place whole.counted)

theorem Whole.exists_get (whole : r.Whole) (column : x < r.width) (row : y < r.height) :
    ∃ pixel, r.get x y = .ok (some pixel) := by
  have place := index_lt (UInt64.lt_iff_toNat_lt.mp column) (UInt64.lt_iff_toNat_lt.mp row)
  rw [← whole.size] at place
  exact ⟨r.pixels[y.toNat * r.width.toNat + x.toNat],
    by rw [whole.get_eq column row, Array.getElem?_eq_getElem place]⟩

/-- Whole rasters with the same pixels are the same. -/
theorem Whole.ext (whole : r.Whole) (otherWhole : other.Whole) (width : r.width = other.width)
    (height : r.height = other.height)
    (same : ∀ x < r.width, ∀ y < r.height, r.get x y = other.get x y) : r = other := by
  have pixels : r.pixels = other.pixels := by
    apply Array.ext (by rw [whole.size, otherWhole.size, width, height])
    intro k inside insideOther
    have place := inside
    rw [whole.size] at place
    have wide : 0 < r.width.toNat := Nat.pos_of_mul_pos_right (Nat.zero_lt_of_lt place)
    have column : k % r.width.toNat < r.width.toNat := Nat.mod_lt _ wide
    have row : k / r.width.toNat < r.height.toNat := Nat.div_lt_of_lt_mul place
    have x : (UInt64.ofNat (k % r.width.toNat)).toNat = k % r.width.toNat :=
      UInt64.toNat_ofNat_of_lt' (Nat.lt_trans column r.width.toNat_lt)
    have y : (UInt64.ofNat (k / r.width.toNat)).toNat = k / r.width.toNat :=
      UInt64.toNat_ofNat_of_lt' (Nat.lt_trans row r.height.toNat_lt)
    rw [← x, ← UInt64.lt_iff_toNat_lt] at column
    rw [← y, ← UInt64.lt_iff_toNat_lt] at row
    have found := same _ column _ row
    rw [whole.get_eq column row, otherWhole.get_eq (width ▸ column) (height ▸ row), ← width, x, y,
      Nat.div_add_mod', Array.getElem?_eq_getElem inside, Array.getElem?_eq_getElem insideOther]
      at found
    exact Option.some.inj (Except.ok.inj found)
  cases r
  cases other
  simp_all

theorem whole_filled (extent : Extent) (color : Color) : (filled extent color).Whole :=
  ⟨Array.size_replicate, extent.counted⟩

theorem get_filled {extent : Extent} {color : Color} (column : x < extent.width)
    (row : y < extent.height) : (filled extent color).get x y = .ok (some color) := by
  have whole := whole_filled extent color
  have inside := index_lt (UInt64.lt_iff_toNat_lt.mp column) (UInt64.lt_iff_toNat_lt.mp row)
  rw [whole.get_eq column row, Array.getElem?_eq_getElem (by rw [whole.size]; exact inside)]
  simp [filled]

/-- An array with `count` items from the front of another written over it from a place on. -/
def written (pixels : Array Color) (start : Nat) (source : Array Color) (count : Nat) :
    Array Color :=
  (List.range count).foldl
    (fun written k => match source[k]? with
      | some color => written.setIfInBounds (start + k) color
      | none => written)
    pixels

theorem written_succ {pixels source : Array Color} {start count : Nat}
    (available : count < source.size) :
    written pixels start source (count + 1) =
      (written pixels start source count).setIfInBounds (start + count) source[count] := by
  rw [written, List.range_succ, List.foldl_append, ← written, List.foldl_cons, List.foldl_nil,
    Array.getElem?_eq_getElem available]

theorem size_written {pixels source : Array Color} {start count : Nat}
    (available : count ≤ source.size) :
    (written pixels start source count).size = pixels.size := by
  induction count with
  | zero => rfl
  | succ count inductionHypothesis =>
    rw [written_succ available, Array.size_setIfInBounds, inductionHypothesis (by omega)]

theorem getElem?_written {pixels source : Array Color} {start count : Nat}
    (available : count ≤ source.size) (room : start + count ≤ pixels.size) (k : Nat) :
    (written pixels start source count)[k]? =
      if start ≤ k ∧ k < start + count then source[k - start]? else pixels[k]? := by
  induction count with
  | zero =>
    rw [if_neg (by omega)]
    rfl
  | succ count inductionHypothesis =>
    rw [written_succ available, Array.getElem?_setIfInBounds,
      inductionHypothesis (by omega) (by omega), size_written (by omega)]
    by_cases last : start + count = k
    · subst last
      rw [if_pos rfl, if_pos (by omega), if_pos (by omega), Nat.add_sub_cancel_left,
        Array.getElem?_eq_getElem]
    · rw [if_neg last]
      by_cases before : start ≤ k ∧ k < start + count
      · rw [if_pos before, if_pos (by omega)]
      · rw [if_neg before, if_neg (by omega)]

theorem size_overwrite (pixels source : Array Color) (start : Nat) :
    (overwrite pixels start source).size = pixels.size :=
  size_written le_rfl

/-- Where items were written over an array they are found again, and everything else is still
there. -/
theorem getElem?_overwrite {pixels source : Array Color} {start : Nat}
    (room : start + source.size ≤ pixels.size) (k : Nat) :
    (overwrite pixels start source)[k]? =
      if start ≤ k ∧ k < start + source.size then source[k - start]? else pixels[k]? :=
  getElem?_written le_rfl room k

variable {pixels : Array Color} {row count column line : Nat}

/-- In rows of a width, places a line apart are different, and a stretch of one line is told by
the line and the columns. -/
theorem between_iff {width first visible line' : Nat} (inside : column < width)
    (fits : first + visible ≤ width) :
    line * width + first ≤ line' * width + column ∧
        line' * width + column < line * width + first + visible ↔
      line' = line ∧ first ≤ column ∧ column < first + visible := by
  constructor
  · rintro ⟨least, greatest⟩
    rcases Nat.lt_trichotomy line' line with above | same | below
    · have := Nat.mul_le_mul_right width (Nat.succ_le_of_lt above)
      rw [Nat.succ_mul] at this
      omega
    · subst same
      omega
    · have := Nat.mul_le_mul_right width (Nat.succ_le_of_lt below)
      rw [Nat.succ_mul] at this
      omega
  · rintro ⟨rfl, least, greatest⟩
    omega

/-- A row of a raster has all columns of it. -/
theorem row_le (width : Nat) {height : Nat} (within : row < height) :
    row * width + width ≤ width * height := by
  rw [← Nat.succ_mul, Nat.mul_comm width]
  exact Nat.mul_le_mul_right width within

theorem size_copyRow (visible : UInt64) :
    (copyRow r other left top visible pixels row).size = pixels.size := by
  unfold copyRow
  simp only
  split
  · exact size_overwrite _ _ _
  · rfl

/-- Copying a row of one raster changes the pixels of the other that it comes to lie on. -/
theorem getElem?_copyRow (whole : r.Whole) (otherWhole : other.Whole) {visible : UInt64}
    (inside : left < r.width) (fits : left.toNat + visible.toNat ≤ r.width.toNat)
    (narrow : visible.toNat ≤ other.width.toNat) (size : pixels.size = r.pixels.size)
    (within : row < other.height.toNat) (columnInside : column < r.width.toNat)
    (lineInside : line < r.height.toNat) :
    (copyRow r other left top visible pixels row)[line * r.width.toNat + column]? =
      if line = top.toNat + row ∧ left.toNat ≤ column ∧ column < left.toNat + visible.toNat then
        other.pixels[row * other.width.toNat + (column - left.toNat)]?
      else pixels[line * r.width.toNat + column]? := by
  have rowEnd := row_le other.width.toNat within
  rw [← otherWhole.size] at rowEnd
  have sourceSize : (other.pixels.extract (row * other.width.toNat)
      (row * other.width.toNat + visible.toNat)).size = visible.toNat := by
    rw [Array.size_extract]
    omega
  unfold copyRow
  by_cases above : top.toNat + row < r.height.toNat
  · have start := whole.index (UInt64.lt_iff_toNat_lt.mp inside) above
    rw [UInt64.ofNat_toNat] at start
    have room : (top.toNat + row) * r.width.toNat + left.toNat + visible.toNat ≤ pixels.size := by
      have lineEnd := row_le r.width.toNat above
      rw [size, whole.size]
      omega
    simp only [start]
    rw [if_pos ⟨above, room, sourceSize⟩, getElem?_overwrite (by rw [sourceSize]; exact room),
      sourceSize]
    simp only [between_iff columnInside fits]
    split
    · next here =>
      obtain ⟨rfl, least, greatest⟩ := here
      rw [Array.getElem?_extract, if_pos (by omega)]
      congr 1
      omega
    · rfl
  · rw [if_neg (fun ⟨inside, _⟩ => above inside), if_neg (by omega)]

theorem rowCount_eq (otherWhole : other.Whole) (wide : 0 < other.width.toNat) :
    other.rowCount = other.height.toNat := by
  rw [rowCount, otherWhole.size, Nat.max_eq_left wide, Nat.add_sub_assoc wide,
    Nat.mul_add_div wide, Nat.div_eq_of_lt (by omega), Nat.add_zero]

/-- The pixels of one raster with the first rows of another copied into it. -/
def copied (r other : Raster) (left top visible : UInt64) (count : Nat) : Array Color :=
  (List.range count).foldl (copyRow r other left top visible) r.pixels

theorem copied_succ (r other : Raster) (left top visible : UInt64) (count : Nat) :
    copied r other left top visible (count + 1) =
      copyRow r other left top visible (copied r other left top visible count) count := by
  rw [copied, List.range_succ, List.foldl_append, ← copied, List.foldl_cons, List.foldl_nil]

theorem size_copied (r other : Raster) (left top visible : UInt64) (count : Nat) :
    (copied r other left top visible count).size = r.pixels.size := by
  induction count with
  | zero => rfl
  | succ count inductionHypothesis => rw [copied_succ, size_copyRow, inductionHypothesis]

theorem getElem?_copied (whole : r.Whole) (otherWhole : other.Whole) {visible : UInt64}
    (inside : left < r.width) (fits : left.toNat + visible.toNat ≤ r.width.toNat)
    (narrow : visible.toNat ≤ other.width.toNat) (available : count ≤ other.height.toNat)
    (columnInside : column < r.width.toNat) (lineInside : line < r.height.toNat) :
    (copied r other left top visible count)[line * r.width.toNat + column]? =
      if (top.toNat ≤ line ∧ line < top.toNat + count) ∧
          left.toNat ≤ column ∧ column < left.toNat + visible.toNat then
        other.pixels[(line - top.toNat) * other.width.toNat + (column - left.toNat)]?
      else r.pixels[line * r.width.toNat + column]? := by
  induction count with
  | zero =>
    rw [if_neg (by omega)]
    rfl
  | succ count inductionHypothesis =>
    rw [copied_succ, getElem?_copyRow whole otherWhole inside fits narrow
      (size_copied r other left top visible count) available columnInside lineInside,
      inductionHypothesis (by omega)]
    by_cases covered : left.toNat ≤ column ∧ column < left.toNat + visible.toNat
    · by_cases last : line = top.toNat + count
      · subst last
        rw [if_pos ⟨rfl, covered⟩, if_pos ⟨by omega, covered⟩, Nat.add_sub_cancel_left]
      · rw [if_neg (fun here => last here.1)]
        refine if_congr (and_congr_left fun _ => ?_) rfl rfl
        omega
    · rw [if_neg (fun here => covered here.2), if_neg (fun here => covered here.2),
        if_neg (fun here => covered here.2)]

theorem blit_eq (inside : left < r.width) :
    r.blit other left top = ⟨r.width, r.height,
      copied r other left top (min other.width (r.width - left)) other.rowCount⟩ :=
  if_pos inside

theorem width_blit (r other : Raster) (left top : UInt64) :
    (r.blit other left top).width = r.width := by
  unfold blit
  split <;> rfl

theorem height_blit (r other : Raster) (left top : UInt64) :
    (r.blit other left top).height = r.height := by
  unfold blit
  split <;> rfl

/-- A raster stays whole when another is laid over it. -/
theorem Whole.blit (whole : r.Whole) (other : Raster) (left top : UInt64) :
    (r.blit other left top).Whole := by
  by_cases inside : left < r.width
  · rw [blit_eq inside]
    exact ⟨(size_copied ..).trans whole.size, whole.counted⟩
  · rw [Raster.blit, if_neg inside]
    exact whole

/-- A pixel of a raster that another was laid over, with its left top corner in a column and a
row, is the pixel of the other there if it has one there. -/
theorem get_blit (whole : r.Whole) (otherWhole : other.Whole) (column : x < r.width)
    (row : y < r.height) :
    (r.blit other left top).get x y =
      if (top.toNat ≤ y.toNat ∧ y.toNat < top.toNat + other.height.toNat) ∧
          left.toNat ≤ x.toNat ∧ x.toNat < left.toNat + other.width.toNat then
        other.get (x - left) (y - top)
      else r.get x y := by
  rw [(whole.blit other left top).get_eq (by rwa [width_blit]) (by rwa [height_blit]),
    width_blit, whole.get_eq column row]
  rw [UInt64.lt_iff_toNat_lt] at column row
  by_cases inside : left < r.width
  · have visible := UInt64.toNat_min other.width (r.width - left)
    rw [UInt64.toNat_sub_of_le _ _ (UInt64.le_of_lt inside)] at visible
    have within := UInt64.lt_iff_toNat_lt.mp inside
    rw [blit_eq inside]
    rcases Nat.eq_zero_or_pos other.width.toNat with empty | wide
    · have rows : other.rowCount = 0 := by
        rw [rowCount, otherWhole.size, empty]
        simp
      rw [rows, if_neg (by omega)]
      rfl
    · rw [rowCount_eq otherWhole wide, getElem?_copied whole otherWhole inside (by omega) (by omega)
        le_rfl column row, visible]
      by_cases covered : (top.toNat ≤ y.toNat ∧ y.toNat < top.toNat + other.height.toNat) ∧
          left.toNat ≤ x.toNat ∧ x.toNat < left.toNat + other.width.toNat
      · have across := UInt64.toNat_sub_of_le x left (UInt64.le_iff_toNat_le.mpr covered.2.1)
        have down := UInt64.toNat_sub_of_le y top (UInt64.le_iff_toNat_le.mpr covered.1.1)
        rw [if_pos (by omega), if_pos covered, otherWhole.get_eq
          (by rw [UInt64.lt_iff_toNat_lt]; omega) (by rw [UInt64.lt_iff_toNat_lt]; omega), across,
          down]
      · rw [if_neg (by omega), if_neg covered]
  · rw [blit, if_neg inside]
    rw [UInt64.lt_iff_toNat_lt] at inside
    rw [if_neg (by omega)]

end DomainColoring.Raster
