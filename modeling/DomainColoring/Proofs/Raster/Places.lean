import DomainColoring.Proofs.Raster

/-!
# Places that are no words

Of the column and the row that a pixel is looked up in, only the column is compared with a side. The
place that a row below the raster leads to may be no word, and then there is no answer, although it
should be that there is no pixel. Likewise a list of pixels is not refused but gets no answer if the
sides ask for more pixels than a word can count. Nothing is wrong with the answers that are given.

What becomes of a product that wraps around is not looked at, since the program stops before.
-/

namespace DomainColoring.Raster

/-- A raster that was filled with one color, or made from a list of pixels. -/
inductive Built (r : Raster) : Prop
  | filled {width height : UInt64} {color : Color} (made : make width height color = .ok r)
  | ofPixels {width height : UInt64} {pixels : Array Color}
      (made : fromPixels width height pixels = .ok (some r))

/-- Every column and row gets an answer. Exactly those inside of the raster have a pixel, and it is
the one that stands there when rows follow one another. -/
structure Finds (r : Raster) : Prop where
  answers : ∀ x y, ∃ found, r.get x y = .ok found
  inside_iff : ∀ x y, (∃ pixel, r.get x y = .ok (some pixel)) ↔ x < r.width ∧ y < r.height
  place : ∀ x y pixel, r.get x y = .ok (some pixel) →
    r.pixels[y.toNat * r.width.toNat + x.toNat]? = some pixel

variable {r : Raster} {width height x y : UInt64} {pixels : Array Color}

theorem make_eq_ok_iff {color : Color} :
    make width height color = .ok r ↔
      ∃ extent : Extent, extent.width = width ∧ extent.height = height ∧
        r = filled extent color :=
  Extent.map_make_eq_ok_iff

/-- Sides that ask for more pixels than a word can count get no answer. -/
theorem fromPixels_of_overflow (uncounted : 2 ^ 64 ≤ width.toNat * height.toNat) :
    fromPixels width height pixels = .error {} := by
  rw [fromPixels, (Extent.make_eq_error_iff (o := {})).mpr uncounted]
  rfl

/-- Otherwise the answer is whether there are as many pixels as the sides ask for. -/
theorem fromPixels_eq (counted : width.toNat * height.toNat < 2 ^ 64) :
    fromPixels width height pixels =
      .ok (if pixels.size = width.toNat * height.toNat then some ⟨width, height, pixels⟩
        else none) := by
  obtain ⟨extent, made⟩ := Extent.exists_make_iff.mpr counted
  rw [fromPixels, made]
  obtain ⟨rfl, rfl⟩ := Extent.make_eq_ok_iff.mp made
  rfl

theorem fromPixels_eq_some_iff :
    fromPixels width height pixels = .ok (some r) ↔
      width.toNat * height.toNat < 2 ^ 64 ∧ pixels.size = width.toNat * height.toNat ∧
        r = ⟨width, height, pixels⟩ := by
  by_cases counted : width.toNat * height.toNat < 2 ^ 64
  · rw [fromPixels_eq counted, Except.ok.injEq]
    split
    · next size => rw [and_iff_right counted, and_iff_right size, Option.some.injEq, eq_comm]
    · next size => exact ⟨nofun, fun accepted => absurd accepted.2.1 size⟩
  · rw [fromPixels_of_overflow (Nat.not_lt.mp counted)]
    exact ⟨nofun, fun accepted => absurd accepted.1 counted⟩

/-- However a raster was made, it is whole. -/
theorem Built.whole (built : r.Built) : r.Whole := by
  cases built with
  | filled made =>
    obtain ⟨extent, -, -, rfl⟩ := make_eq_ok_iff.mp made
    exact whole_filled extent _
  | ofPixels made =>
    obtain ⟨counted, size, rfl⟩ := fromPixels_eq_some_iff.mp made
    exact ⟨size, counted⟩

/-- Whether there is an answer depends on the place only. -/
theorem exists_get_iff :
    (∃ found, r.get x y = .ok found) ↔
      r.width ≤ x ∨ y.toNat * r.width.toNat + x.toNat < 2 ^ 64 := by
  by_cases outside : r.width ≤ x
  · exact iff_of_true ⟨_, get_outside outside⟩ (.inl outside)
  · have column := UInt64.not_le.mp outside
    by_cases isWord : y.toNat * r.width.toNat + x.toNat < 2 ^ 64
    · exact iff_of_true ⟨_, get_eq column isWord⟩ (.inr isWord)
    · rw [get_overflow column (Nat.not_lt.mp isWord)]
      exact iff_of_false nofun (not_or.mpr ⟨outside, isWord⟩)

/-- Every answer is right. -/
theorem Whole.eq_of_get (whole : r.Whole) {found : Option Color} (answer : r.get x y = .ok found) :
    found = if x < r.width ∧ y < r.height then r.pixels[y.toNat * r.width.toNat + x.toNat]?
      else none := by
  by_cases column : x < r.width
  · obtain isWord := (exists_get_iff.mp ⟨found, answer⟩).resolve_left (UInt64.not_le.mpr column)
    rw [Raster.get_eq column isWord, Except.ok.injEq] at answer
    subst answer
    by_cases row : y < r.height
    · rw [if_pos ⟨column, row⟩]
    · rw [if_neg fun inside => row inside.2, Array.getElem?_eq_none_iff, whole.size, Nat.mul_comm]
      rw [UInt64.lt_iff_toNat_lt, Nat.not_lt] at row
      exact Nat.le_add_right_of_le (Nat.mul_le_mul_right _ row)
  · rw [get_outside (UInt64.not_lt.mp column), Except.ok.injEq] at answer
    rw [← answer, if_neg fun inside => column inside.1]

/-- An answer is a pixel exactly inside of the raster, and then the pixel in its place. -/
theorem Whole.answer_iff (whole : r.Whole) {found : Option Color}
    (answer : r.get x y = .ok found) :
    ((∃ pixel, found = some pixel) ↔ x < r.width ∧ y < r.height) ∧
      ∀ pixel, found = some pixel →
        r.pixels[y.toNat * r.width.toNat + x.toNat]? = some pixel := by
  have right := whole.eq_of_get answer
  by_cases inside : x < r.width ∧ y < r.height
  · rw [if_pos inside] at right
    obtain ⟨pixel, there⟩ := whole.exists_get inside.1 inside.2
    rw [answer, Except.ok.injEq] at there
    exact ⟨iff_of_true ⟨pixel, there⟩ inside, fun pixel some => right ▸ some⟩
  · rw [if_neg inside] at right
    subst right
    exact ⟨iff_of_false nofun inside, nofun⟩

/-- With two columns or more, a row far below gets no answer. -/
theorem exists_overflow (wide : 2 ≤ r.width.toNat) : ∃ y, r.get 0 y = .error {} := by
  refine ⟨0x8000000000000000, get_overflow (UInt64.lt_iff_toNat_lt.mpr ?_) ?_⟩
  · exact Nat.lt_of_lt_of_le (by decide) wide
  · have far : 2 ^ 63 * 2 ≤ 2 ^ 63 * r.width.toNat := Nat.mul_le_mul_left _ wide
    exact Nat.le_trans (by decide) far

/-- Every column and row gets an answer only if there is one column at most. -/
theorem answers_iff :
    (∀ x y, ∃ found, r.get x y = .ok found) ↔ r.width.toNat ≤ 1 := by
  constructor
  · intro answers
    by_contra wide
    obtain ⟨y, overflow⟩ := exists_overflow (r := r) (Nat.lt_of_not_le wide)
    obtain ⟨found, answer⟩ := answers 0 y
    rw [overflow] at answer
    cases answer
  · intro narrow x y
    rw [exists_get_iff]
    by_cases outside : r.width ≤ x
    · exact .inl outside
    · have first := UInt64.lt_iff_toNat_lt.mp (UInt64.not_le.mp outside)
      have rows : y.toNat * r.width.toNat ≤ y.toNat * 1 := Nat.mul_le_mul_left _ narrow
      have word := y.toNat_lt
      exact .inr (by omega)

/-- A raster finds exactly its pixels if every column and row gets an answer. -/
theorem Whole.finds_iff_answers (whole : r.Whole) :
    r.Finds ↔ ∀ x y, ∃ found, r.get x y = .ok found := by
  refine ⟨Finds.answers, fun answers => ⟨answers, fun x y => ?_, fun x y pixel answer => ?_⟩⟩
  · obtain ⟨found, answer⟩ := answers x y
    rw [answer, ← (whole.answer_iff answer).1]
    simp only [Except.ok.injEq]
  · exact (whole.answer_iff answer).2 pixel rfl

/-- A raster finds exactly the pixels inside if and only if it has one column at most; any other
gives no answer for some row below. It holds as many pixels as its sides ask for. A column and a row
get an answer exactly if the column lies outside or their place is a word, and every answer is
right; inside of the raster there always is one. A list of pixels is accepted exactly if it is as
long as the sides ask for, if and only if that number is a word: there is no answer to other
sides. -/
theorem finds_iff (built : r.Built) :
    (r.Finds ↔ r.width.toNat ≤ 1) ∧
    r.pixels.size = r.width.toNat * r.height.toNat ∧
    (∀ x y, ((∃ found, r.get x y = .ok found) ↔
        r.width ≤ x ∨ y.toNat * r.width.toNat + x.toNat < 2 ^ 64) ∧
      ∀ found, r.get x y = .ok found →
        ((∃ pixel, found = some pixel) ↔ x < r.width ∧ y < r.height) ∧
        ∀ pixel, found = some pixel →
          r.pixels[y.toNat * r.width.toNat + x.toNat]? = some pixel) ∧
    (∀ x < r.width, ∀ y < r.height, ∃ pixel, r.get x y = .ok (some pixel)) ∧
    ∀ width height pixels,
      ((∃ answer, fromPixels width height pixels = .ok answer) ↔
        width.toNat * height.toNat < 2 ^ 64) ∧
      ∀ answer, fromPixels width height pixels = .ok answer →
        ((∃ made, answer = some made) ↔ pixels.size = width.toNat * height.toNat) ∧
        ∀ made, answer = some made → made = ⟨width, height, pixels⟩ := by
  have whole := built.whole
  refine ⟨whole.finds_iff_answers.trans answers_iff, whole.size, fun x y => ⟨exists_get_iff,
    fun found answer => whole.answer_iff answer⟩, fun x column y row => whole.exists_get column row,
    fun width height pixels => ?_⟩
  by_cases counted : width.toNat * height.toNat < 2 ^ 64
  · rw [fromPixels_eq counted]
    refine ⟨iff_of_true ⟨_, rfl⟩ counted, ?_⟩
    rintro answer same
    obtain rfl := Except.ok.inj same
    split
    · next size => exact ⟨iff_of_true ⟨_, rfl⟩ size, fun made some => (Option.some.inj some).symm⟩
    · next size => exact ⟨iff_of_false nofun size, nofun⟩
  · rw [fromPixels_of_overflow (Nat.not_lt.mp counted)]
    exact ⟨iff_of_false nofun counted, nofun⟩

/-- One column finds its pixels, and two columns do not. -/
theorem finds_iff_columns :
    ∃ column square : Raster, make 1 2 .lightGray = .ok column ∧ column.Finds ∧
      make 2 2 .lightGray = .ok square ∧ ¬ square.Finds := by
  let column := filled ⟨1, 2, by decide⟩ .lightGray
  let square := filled ⟨2, 2, by decide⟩ .lightGray
  have columnMade : make 1 2 .lightGray = .ok column := rfl
  have squareMade : make 2 2 .lightGray = .ok square := rfl
  obtain ⟨finds, -⟩ := finds_iff (.filled columnMade)
  obtain ⟨squareFinds, -⟩ := finds_iff (.filled squareMade)
  refine ⟨column, square, columnMade, finds.mpr (by decide), squareMade, fun answers => ?_⟩
  exact absurd (squareFinds.mp answers) (by decide)

/-- Four pixels in a square, and no answer for a row far below them, where there is no pixel; and no
answer to a list without pixels for sides that ask for `2 ^ 64`. -/
theorem found_below_square :
    ∃ square : Raster, make 2 2 .lightGray = .ok square ∧
      ¬ (0x8000000000000000 : UInt64) < square.height ∧
      square.get 0 0x8000000000000000 ≠ .ok none ∧
      fromPixels 0x100000000 0x100000000 #[] ≠ .ok none := by
  refine ⟨filled ⟨2, 2, by decide⟩ .lightGray, rfl, by decide, by decide, by decide⟩

end DomainColoring.Raster
