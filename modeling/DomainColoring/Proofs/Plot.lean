import DomainColoring.Plot
import DomainColoring.Proofs.Rendering

/-!
# What a plot shows after drawing

A picture that is laid over a panel has the sides of the panel and lies on the canvas as a whole,
so it covers all of the panel and nothing else. The left panel is drawn first, which takes a
valid style only; the right one needs the number of samples to be within its limits as well. A
call that fails there leaves its left picture behind.
-/

namespace DomainColoring

/-- The number of samples is looked at after the rest of the style. -/
theorem Style.validate_sampled (style : Style) (counts : SampleCounts) :
    { style with sampling := some counts }.validate =
      { style with sampling := none }.validate >>= fun _ => counts.check := by
  simp only [validate, bind_assoc, pure_bind]

theorem Style.validate_sampled_iff (style : Style) (counts : SampleCounts) :
    { style with sampling := some counts }.validate = .ok () ↔
      { style with sampling := none }.validate = .ok () ∧ counts.check = .ok () := by
  rw [validate_sampled]
  cases { style with sampling := none }.validate with
  | error refused => simp [bind, Except.bind]
  | ok _ => simp [bind, Except.bind]

theorem SampleCounts.check_square_iff (count : UInt64) :
    (square count).check = .ok () ↔ 1 ≤ count.toNat ∧ count.toNat ≤ 2 ^ 20 := by
  simp [check, square, Limits.admits, Limits.samplesPerAxis, UInt64.le_iff_toNat_le]

namespace Panel

/-- The panel has the pixel in a column and a row of its canvas. -/
def Contains (panel : Panel) (x y : UInt64) : Prop :=
  (panel.top.toNat ≤ y.toNat ∧ y.toNat < panel.top.toNat + panel.height.toNat) ∧
    panel.left.toNat ≤ x.toNat ∧ x.toNat < panel.left.toNat + panel.width.toNat

/-- All of the panel lies on the canvas. -/
def FitsIn (panel : Panel) (canvas : Raster) : Prop :=
  panel.left.toNat + panel.width.toNat ≤ canvas.width.toNat ∧
    panel.top.toNat + panel.height.toNat ≤ canvas.height.toNat

/-- No pixel belongs to both panels. -/
def Apart (panel other : Panel) : Prop :=
  ∀ x y, panel.Contains x y → ¬ other.Contains x y

/-- Pixel for pixel, the panel of the canvas is the picture. -/
def Shows (panel : Panel) (canvas picture : Raster) : Prop :=
  ∀ column < panel.width, ∀ row < panel.height, ∃ pixel,
    picture.get column row = .ok (some pixel) ∧
      canvas.get (panel.left + column) (panel.top + row) = .ok (some pixel)

variable {panel other : Panel} {canvas picture : Raster} {x y column row : UInt64}

/-- On a canvas that a panel fits in, the places of its pixels are no words that wrapped around. -/
theorem FitsIn.toNat_place (fits : panel.FitsIn canvas) (inside : column < panel.width)
    (above : row < panel.height) :
    (panel.left + column).toNat = panel.left.toNat + column.toNat ∧
      (panel.top + row).toNat = panel.top.toNat + row.toNat := by
  have wide := canvas.width.toNat_lt
  have high := canvas.height.toNat_lt
  obtain ⟨across, down⟩ := fits
  rw [UInt64.lt_iff_toNat_lt] at inside above
  rw [UInt64.toNat_add, UInt64.toNat_add, Nat.mod_eq_of_lt (by omega),
    Nat.mod_eq_of_lt (by omega)]
  exact ⟨rfl, rfl⟩

theorem FitsIn.contains_place (fits : panel.FitsIn canvas) (inside : column < panel.width)
    (above : row < panel.height) : panel.Contains (panel.left + column) (panel.top + row) := by
  obtain ⟨across, down⟩ := fits.toNat_place inside above
  rw [UInt64.lt_iff_toNat_lt] at inside above
  unfold Contains
  omega

theorem FitsIn.place_lt (fits : panel.FitsIn canvas) (inside : column < panel.width)
    (above : row < panel.height) :
    panel.left + column < canvas.width ∧ panel.top + row < canvas.height := by
  obtain ⟨across, down⟩ := fits.toNat_place inside above
  obtain ⟨narrow, short⟩ := fits
  rw [UInt64.lt_iff_toNat_lt] at inside above ⊢
  rw [UInt64.lt_iff_toNat_lt]
  omega

/-- A picture with the sides of a panel, laid over it, is what the panel shows. -/
theorem shows_blit (whole : canvas.Whole) (pictureWhole : picture.Whole)
    (fits : panel.FitsIn canvas) (width : picture.width = panel.width)
    (height : picture.height = panel.height) :
    panel.Shows (canvas.blit picture panel.left panel.top) picture := by
  intro column inside row above
  obtain ⟨pixel, found⟩ :=
    pictureWhole.exists_get (by rwa [width] : column < _) (by rwa [height] : row < _)
  refine ⟨pixel, found, ?_⟩
  obtain ⟨xInside, yInside⟩ := fits.place_lt inside above
  have contained := fits.contains_place inside above
  unfold Contains at contained
  rw [Raster.get_blit whole pictureWhole xInside yInside, width, height, if_pos contained,
    add_sub_cancel_left, add_sub_cancel_left, found]

/-- A picture with the sides of a panel, laid over it, leaves all other pixels as they are. -/
theorem get_blit_of_not_contains (whole : canvas.Whole) (pictureWhole : picture.Whole)
    (width : picture.width = panel.width) (height : picture.height = panel.height)
    (xInside : x < canvas.width) (yInside : y < canvas.height) (outside : ¬ panel.Contains x y) :
    (canvas.blit picture panel.left panel.top).get x y = canvas.get x y := by
  unfold Contains at outside
  rw [Raster.get_blit whole pictureWhole xInside yInside, width, height, if_neg outside]

theorem Shows.blit {shown : Raster} (shows : other.Shows canvas shown) (whole : canvas.Whole)
    (pictureWhole : picture.Whole) (fits : other.FitsIn canvas) (apart : other.Apart panel)
    (width : picture.width = panel.width) (height : picture.height = panel.height) :
    other.Shows (canvas.blit picture panel.left panel.top) shown := by
  intro column inside row above
  obtain ⟨pixel, found, drawn⟩ := shows column inside row above
  obtain ⟨xInside, yInside⟩ := fits.place_lt inside above
  refine ⟨pixel, found, ?_⟩
  rw [get_blit_of_not_contains whole pictureWhole width height xInside yInside
    (apart _ _ (fits.contains_place inside above)), drawn]

end Panel

namespace Plot

/-- What a plot is asked to draw. -/
structure Call where
  f : NamedMap
  area : Area
  quality : UInt64
  style : Style

namespace Call

/-- The picture of the area, with one sample a pixel. -/
def preimage (c : Call) (panel : Panel) : Except PlotError Raster :=
  Rendering.render .identity c.area panel.width panel.height { c.style with sampling := none }

/-- The picture of the image of the area. -/
def image (c : Call) (panel : Panel) : Except PlotError Raster :=
  Rendering.render c.f c.area panel.width panel.height
    { c.style with sampling := some (.square c.quality) }

/-- Apart from its number of samples, the style is valid. -/
def isValid (c : Call) : Bool :=
  { c.style with sampling := none }.validate.isOk

/-- The quality is a number of samples within the limits. -/
def Moderate (c : Call) : Prop :=
  1 ≤ c.quality.toNat ∧ c.quality.toNat ≤ 2 ^ 20

/-- The call with a style that asks for another number of samples. -/
def resampled (c : Call) (sampling : Option SampleCounts) : Call :=
  { c with style := { c.style with sampling := sampling } }

theorem isValid_iff {c : Call} :
    c.isValid = true ↔ { c.style with sampling := none }.validate = .ok () := by
  refine ⟨fun valid => Rendering.eq_ok_of_isOk valid, fun valid => ?_⟩
  rw [isValid, valid]
  rfl

end Call

/-- The outcome of a call, and the plot after it. -/
def perform (p : Plot) (c : Call) : Except PlotError Unit × Plot :=
  p.draw c.f c.area c.quality c.style

/-- The plot after calls, whatever became of them. -/
def after (p : Plot) (calls : List Call) : Plot :=
  calls.foldl (fun p c => (p.perform c).2) p

/-- The calls that did not fail when they were made one after another. -/
def successes (p : Plot) : List Call → List Call
  | [] => []
  | c :: rest =>
    if (p.perform c).1.isOk then c :: successes (p.perform c).2 rest
    else successes (p.perform c).2 rest

/-- The picture that belongs into a panel after calls of which `last` was the last. -/
def lastPicture (background : Color) (panel : Panel)
    (drawing : Call → Panel → Except PlotError Raster)
    (last : Option Call) : Except PlotError Raster :=
  match last with
  | none => .ok ⟨panel.width, panel.height,
    .replicate (panel.width.toNat * panel.height.toNat) background⟩
  | some c => drawing c panel

/-- The panel of the plot shows a picture that was made. -/
def ShowsMade (p : Plot) (panel : Panel) (made : Except PlotError Raster) : Prop :=
  ∃ picture, made = .ok picture ∧ panel.Shows p.canvas picture

/-- Where the panels lie, and how large the canvas is. -/
structure Laid (width height : UInt64) (p : Plot) : Prop where
  sides : Raster.checkSides width height = .ok ()
  preimage : p.preimage = ⟨10, 10, width, height⟩
  image : p.image = ⟨130 + width, 10, width, height⟩
  canvasWidth : p.canvas.width.toNat = 2 * width.toNat + 140
  canvasHeight : p.canvas.height.toNat = height.toNat + 20
  whole : p.canvas.Whole

variable {p : Plot} {width height : UInt64} {background : Color} {c : Call}

theorem Laid.toNat_eq (laid : p.Laid width height) :
    p.canvas.width.toNat = 2 * width.toNat + 140 ∧ p.canvas.height.toNat = height.toNat + 20 ∧
      p.image.left.toNat = 130 + width.toNat := by
  rw [laid.image]
  exact ⟨laid.canvasWidth, laid.canvasHeight, (toNat_sides laid.sides).2.2⟩

theorem Laid.preimage_fits (laid : p.Laid width height) : p.preimage.FitsIn p.canvas := by
  obtain ⟨canvasWidth, canvasHeight, -⟩ := laid.toNat_eq
  rw [Panel.FitsIn, canvasWidth, canvasHeight, laid.preimage]
  change 10 + width.toNat ≤ _ ∧ 10 + height.toNat ≤ _
  omega

theorem Laid.image_fits (laid : p.Laid width height) : p.image.FitsIn p.canvas := by
  obtain ⟨canvasWidth, canvasHeight, left⟩ := laid.toNat_eq
  rw [Panel.FitsIn, canvasWidth, canvasHeight, left, laid.image]
  change 130 + width.toNat + width.toNat ≤ _ ∧ 10 + height.toNat ≤ _
  omega

theorem Laid.apart (laid : p.Laid width height) : p.preimage.Apart p.image := by
  intro x y onPreimage onImage
  obtain ⟨-, -, left⟩ := laid.toNat_eq
  have ends := onPreimage.2.2
  have starts := onImage.2.1
  rw [laid.preimage] at ends
  change x.toNat < 10 + width.toNat at ends
  omega

theorem Laid.lay (laid : p.Laid width height) (panel : Panel) (picture : Raster) :
    (p.lay panel picture).Laid width height where
  sides := laid.sides
  preimage := laid.preimage
  image := laid.image
  canvasWidth := (congrArg UInt64.toNat (Raster.width_blit ..)).trans laid.canvasWidth
  canvasHeight := (congrArg UInt64.toNat (Raster.height_blit ..)).trans laid.canvasHeight
  whole := laid.whole.blit ..

theorem make_eq (background : Color) (sides : Raster.checkSides width height = .ok ()) :
    make width height background =
      .ok ⟨.filled (canvasExtent sides) background, ⟨10, 10, width, height⟩,
        ⟨130 + width, 10, width, height⟩⟩ := by
  unfold make
  split
  · next refused =>
    rw [sides] at refused
    cases refused
  · rfl

theorem sides_of_make (made : make width height background = .ok p) :
    Raster.checkSides width height = .ok () := by
  unfold make at made
  split at made
  · cases made
  · next sides => exact sides

/-- The state of a plot after calls: `preimage` and `image` are the last calls that drew into the
panels. -/
structure Holds (width height : UInt64) (background : Color) (preimage image : Option Call)
    (p : Plot) : Prop where
  laid : p.Laid width height
  margins : ∀ x < p.canvas.width, ∀ y < p.canvas.height, ¬ p.preimage.Contains x y →
    ¬ p.image.Contains x y → p.canvas.get x y = .ok (some background)
  preimage : p.ShowsMade p.preimage (lastPicture background p.preimage Call.preimage preimage)
  image : p.ShowsMade p.image (lastPicture background p.image Call.image image)

/-- A panel of a canvas of one color shows a picture of that color. -/
theorem showsMade_filled {panel : Panel} (whole : p.canvas.Whole) (fits : panel.FitsIn p.canvas)
    {extent : Extent} (filled : p.canvas = .filled extent background)
    (drawing : Call → Panel → Except PlotError Raster) :
    p.ShowsMade panel (lastPicture background panel drawing none) := by
  have counted : panel.width.toNat * panel.height.toNat < 2 ^ 64 := by
    apply Nat.lt_of_le_of_lt (Nat.mul_le_mul _ _) whole.counted
    · exact Nat.le_trans (Nat.le_add_left _ _) fits.1
    · exact Nat.le_trans (Nat.le_add_left _ _) fits.2
  refine ⟨.filled ⟨panel.width, panel.height, counted⟩ background, rfl, ?_⟩
  intro column inside row above
  obtain ⟨xInside, yInside⟩ := fits.place_lt inside above
  refine ⟨background, Raster.get_filled inside above, ?_⟩
  rw [filled] at xInside yInside ⊢
  exact Raster.get_filled xInside yInside

theorem holds_of_make (made : make width height background = .ok p) :
    p.Holds width height background none none := by
  have sides := sides_of_make made
  rw [make_eq background sides, Except.ok.injEq] at made
  obtain ⟨canvasWidth, canvasHeight, -⟩ := toNat_sides sides
  have laid : p.Laid width height := by
    subst made
    exact ⟨sides, rfl, rfl, canvasWidth, canvasHeight, Raster.whole_filled _ background⟩
  have filled : p.canvas = .filled (canvasExtent sides) background := by rw [← made]
  refine ⟨laid, ?_, showsMade_filled laid.whole laid.preimage_fits filled _,
    showsMade_filled laid.whole laid.image_fits filled _⟩
  intro x xInside y yInside _ _
  rw [filled] at xInside yInside ⊢
  exact Raster.get_filled xInside yInside

theorem Laid.exists_preimage_iff (laid : p.Laid width height) :
    (∃ picture, c.preimage p.preimage = .ok picture) ↔ c.isValid = true := by
  rw [Call.preimage, laid.preimage, Rendering.exists_render_iff, Call.isValid_iff]
  exact and_iff_right laid.sides

theorem Laid.exists_image_iff (laid : p.Laid width height) :
    (∃ picture, c.image p.image = .ok picture) ↔ c.isValid = true ∧ c.Moderate := by
  rw [Call.image, laid.image, Rendering.exists_render_iff, Style.validate_sampled_iff,
    SampleCounts.check_square_iff, Call.isValid_iff]
  exact and_iff_right laid.sides

/-! What a call does follows from which of its pictures are made. -/

theorem perform_of_error {refused : PlotError} (first : c.preimage p.preimage = .error refused) :
    p.perform c = (.error refused, p) := by
  unfold Call.preimage at first
  simp only [perform, draw, first]

theorem perform_of_image_error {left : Raster} {refused : PlotError}
    (first : c.preimage p.preimage = .ok left) (second : c.image p.image = .error refused) :
    p.perform c = (.error refused, p.lay p.preimage left) := by
  unfold Call.preimage at first
  unfold Call.image at second
  simp only [perform, draw, first, lay, second]

theorem perform_of_ok {left right : Raster} (first : c.preimage p.preimage = .ok left)
    (second : c.image p.image = .ok right) :
    p.perform c = (.ok (), (p.lay p.preimage left).lay p.image right) := by
  unfold Call.preimage at first
  unfold Call.image at second
  simp only [perform, draw, first, lay, second]

/-- All that a call can do: it draws nothing, or the left panel only, or both. -/
theorem perform_cases (laid : p.Laid width height) (c : Call) :
    (c.isValid = false ∧ ∃ refused, p.perform c = (.error refused, p)) ∨
    (c.isValid = true ∧ ∃ preimage, c.preimage p.preimage = .ok preimage ∧
      ((¬ c.Moderate ∧
          ∃ refused, p.perform c = (.error refused, p.lay p.preimage preimage)) ∨
        (c.Moderate ∧ ∃ image, c.image p.image = .ok image ∧
          p.perform c = (.ok (), (p.lay p.preimage preimage).lay p.image image)))) := by
  have preimageMade := laid.exists_preimage_iff (c := c)
  have imageMade := laid.exists_image_iff (c := c)
  cases first : c.preimage p.preimage with
  | error refused =>
    left
    refine ⟨?_, refused, perform_of_error first⟩
    rw [first] at preimageMade
    simpa using preimageMade
  | ok preimage =>
    right
    have valid := preimageMade.mp ⟨preimage, first⟩
    refine ⟨valid, preimage, rfl, ?_⟩
    cases second : c.image p.image with
    | error refused =>
      left
      refine ⟨fun moderate => ?_, refused, perform_of_image_error first second⟩
      obtain ⟨image, made⟩ := imageMade.mpr ⟨valid, moderate⟩
      rw [second] at made
      cases made
    | ok image =>
      exact .inr ⟨(imageMade.mp ⟨image, second⟩).2, image, rfl, perform_of_ok first second⟩

variable {preimage image : Option Call} {picture : Raster} {panel : Panel} {x y : UInt64}

theorem canvas_width_lay (p : Plot) (panel : Panel) (picture : Raster) :
    (p.lay panel picture).canvas.width = p.canvas.width :=
  Raster.width_blit ..

theorem canvas_height_lay (p : Plot) (panel : Panel) (picture : Raster) :
    (p.lay panel picture).canvas.height = p.canvas.height :=
  Raster.height_blit ..

/-- A picture that was made for a panel changes no other pixel when it is laid over it. -/
theorem Laid.get_lay {f : NamedMap} {area : Area} {style : Style} (laid : p.Laid width height)
    (made : Rendering.render f area panel.width panel.height style = .ok picture)
    (xInside : x < p.canvas.width) (yInside : y < p.canvas.height)
    (outside : ¬ panel.Contains x y) :
    (p.lay panel picture).canvas.get x y = p.canvas.get x y := by
  obtain ⟨pictureWidth, pictureHeight, whole⟩ := Rendering.whole_of_render made
  exact Panel.get_blit_of_not_contains laid.whole whole pictureWidth pictureHeight xInside yInside
    outside

theorem Holds.margins_lay {f : NamedMap} {area : Area} {style : Style}
    (holds : p.Holds width height background preimage image)
    (onPanel : ∀ x y, panel.Contains x y → p.preimage.Contains x y ∨ p.image.Contains x y)
    (made : Rendering.render f area panel.width panel.height style = .ok picture) :
    ∀ x < (p.lay panel picture).canvas.width, ∀ y < (p.lay panel picture).canvas.height,
      ¬ p.preimage.Contains x y → ¬ p.image.Contains x y →
      (p.lay panel picture).canvas.get x y = .ok (some background) := by
  intro x xInside y yInside offPreimage offImage
  rw [canvas_width_lay] at xInside
  rw [canvas_height_lay] at yInside
  rw [holds.laid.get_lay made xInside yInside
    (fun contained => (onPanel x y contained).elim offPreimage offImage)]
  exact holds.margins x xInside y yInside offPreimage offImage

/-- A picture over the left panel replaces what it shows, and nothing else. -/
theorem Holds.lay_preimage (holds : p.Holds width height background preimage image)
    (made : c.preimage p.preimage = .ok picture) :
    (p.lay p.preimage picture).Holds width height background (some c) image := by
  obtain ⟨pictureWidth, pictureHeight, whole⟩ := Rendering.whole_of_render made
  have laid := holds.laid
  refine ⟨laid.lay _ _, holds.margins_lay (fun _ _ => .inl) made, ⟨picture, made, ?_⟩, ?_⟩
  · exact Panel.shows_blit laid.whole whole laid.preimage_fits pictureWidth pictureHeight
  · obtain ⟨shown, shownMade, shows⟩ := holds.image
    exact ⟨shown, shownMade, shows.blit laid.whole whole laid.image_fits
      (fun x y onImage onPreimage => laid.apart x y onPreimage onImage) pictureWidth
      pictureHeight⟩

/-- A picture over the right panel replaces what it shows, and nothing else. -/
theorem Holds.lay_image (holds : p.Holds width height background preimage image)
    (made : c.image p.image = .ok picture) :
    (p.lay p.image picture).Holds width height background preimage (some c) := by
  obtain ⟨pictureWidth, pictureHeight, whole⟩ := Rendering.whole_of_render made
  have laid := holds.laid
  refine ⟨laid.lay _ _, holds.margins_lay (fun _ _ => .inr) made, ?_, ⟨picture, made, ?_⟩⟩
  · obtain ⟨shown, shownMade, shows⟩ := holds.preimage
    exact ⟨shown, shownMade, shows.blit laid.whole whole laid.preimage_fits laid.apart
      pictureWidth pictureHeight⟩
  · exact Panel.shows_blit laid.whole whole laid.image_fits pictureWidth pictureHeight

/-- The step of a run: a valid call is the last in the left panel from then on, and a call that
succeeds is the last in both. -/
theorem Holds.perform (holds : p.Holds width height background preimage image) (c : Call) :
    (p.perform c).2.Holds width height background (if c.isValid then some c else preimage)
      (if (p.perform c).1.isOk then some c else image) := by
  rcases perform_cases holds.laid c with ⟨invalid, refused, performed⟩ |
    ⟨valid, left, leftMade, ⟨-, refused, performed⟩ | ⟨-, right, rightMade, performed⟩⟩
  · rw [performed, invalid]
    exact holds
  · rw [performed, valid]
    exact holds.lay_preimage leftMade
  · rw [performed, valid]
    exact (holds.lay_preimage leftMade).lay_image rightMade

theorem after_append (p : Plot) (calls : List Call) (c : Call) :
    p.after (calls ++ [c]) = ((p.after calls).perform c).2 := by
  simp [after]

theorem successes_append (p : Plot) (calls : List Call) (c : Call) :
    p.successes (calls ++ [c]) =
      p.successes calls ++ if ((p.after calls).perform c).1.isOk then [c] else [] := by
  induction calls generalizing p with
  | nil => rfl
  | cons first rest inductionHypothesis =>
    simp only [List.cons_append, successes, inductionHypothesis, after, List.foldl_cons]
    split <;> rfl

theorem getLast?_append_ite (calls : List Call) (added : Bool) (c : Call) :
    (calls ++ if added then [c] else []).getLast? =
      if added then some c else calls.getLast? := by
  cases added <;> simp

/-- Whatever calls are made on a plot, each panel shows the last call that drew into it. -/
theorem holds_after (made : make width height background = .ok p) (calls : List Call) :
    (p.after calls).Holds width height background (calls.filter Call.isValid).getLast?
      (p.successes calls).getLast? := by
  induction calls using List.reverseRecOn with
  | nil => exact holds_of_make made
  | append_singleton calls c inductionHypothesis =>
    rw [after_append, successes_append, List.filter_append, List.filter_singleton,
      Bool.cond_eq_ite, getLast?_append_ite, getLast?_append_ite]
    exact inductionHypothesis.perform c

/-- A call that fails changes the canvas only where it should. -/
theorem Laid.failing (laid : p.Laid width height) {refused : PlotError}
    (failed : (p.perform c).1 = .error refused) :
    ((p.perform c).2.canvas ≠ p.canvas → c.isValid = true ∧ ¬ c.Moderate) ∧
      ∀ x < p.canvas.width, ∀ y < p.canvas.height, ¬ p.preimage.Contains x y →
        (p.perform c).2.canvas.get x y = p.canvas.get x y := by
  rcases perform_cases laid c with ⟨-, _, performed⟩ |
    ⟨valid, left, leftMade, ⟨poor, _, performed⟩ | ⟨-, right, -, performed⟩⟩
  · rw [performed]
    exact ⟨fun changed => absurd rfl changed, fun _ _ _ _ _ => rfl⟩
  · rw [performed]
    exact ⟨fun _ => ⟨valid, poor⟩, fun x xInside y yInside off =>
      laid.get_lay leftMade xInside yInside off⟩
  · rw [performed] at failed
    cases failed

theorem Laid.isOk_perform_iff (laid : p.Laid width height) :
    (p.perform c).1.isOk = true ↔ c.isValid = true ∧ c.Moderate := by
  rcases perform_cases laid c with ⟨invalid, _, performed⟩ |
    ⟨valid, left, -, ⟨poor, _, performed⟩ | ⟨moderate, right, -, performed⟩⟩
  · simp [performed, invalid, Except.isOk, Except.toBool]
  · simp [performed, poor, Except.isOk, Except.toBool]
  · simp [performed, valid, moderate, Except.isOk, Except.toBool]

/-- The number of samples in a style makes no difference to a run. -/
theorem after_resampled (p : Plot) (calls : List Call)
    (sampling : Call → Option SampleCounts) :
    p.after (calls.map fun c => c.resampled (sampling c)) = p.after calls := by
  rw [after, List.foldl_map]
  rfl

/-- After any calls on a plot, failed ones among them, the panels lie next to each other on a
canvas that is background outside of them. The right panel shows the image that the last call
that did not fail asked for, and the left one the area of the last call with a style that is
valid apart from its number of samples. A further call that fails changes the canvas only if its
style is so and its quality is not within the limits, and then only in the left panel. The
number of samples in a style never makes a difference. -/
theorem after_calls {plot : Plot} (made : make width height background = .ok plot)
    (calls : List Call) :
    let p := plot.after calls
    p.preimage = ⟨10, 10, width, height⟩ ∧ p.image = ⟨130 + width, 10, width, height⟩ ∧
      p.canvas.width.toNat = 2 * width.toNat + 140 ∧ p.canvas.height.toNat = height.toNat + 20 ∧
      p.canvas.pixels.size = p.canvas.width.toNat * p.canvas.height.toNat ∧
      p.preimage.FitsIn p.canvas ∧ p.image.FitsIn p.canvas ∧ p.preimage.Apart p.image ∧
      (∀ x < p.canvas.width, ∀ y < p.canvas.height, ¬ p.preimage.Contains x y →
        ¬ p.image.Contains x y → p.canvas.get x y = .ok (some background)) ∧
      p.ShowsMade p.image
        (lastPicture background p.image Call.image (plot.successes calls).getLast?) ∧
      p.ShowsMade p.preimage
        (lastPicture background p.preimage Call.preimage (calls.filter Call.isValid).getLast?) ∧
      (∀ (c : Call) (refused : PlotError), (p.perform c).1 = .error refused →
        ((p.perform c).2.canvas ≠ p.canvas →
          c.isValid = true ∧ ¬ (1 ≤ c.quality.toNat ∧ c.quality.toNat ≤ 2 ^ 20)) ∧
        ∀ x < p.canvas.width, ∀ y < p.canvas.height, ¬ p.preimage.Contains x y →
          (p.perform c).2.canvas.get x y = p.canvas.get x y) ∧
      (∀ c sampling, p.perform (c.resampled sampling) = p.perform c) ∧
      ∀ sampling : Call → Option SampleCounts,
        plot.after (calls.map fun c => c.resampled (sampling c)) = p := by
  intro p
  have holds : p.Holds width height background _ _ := holds_after made calls
  have laid := holds.laid
  obtain ⟨canvasWidth, canvasHeight, -⟩ := laid.toNat_eq
  exact ⟨laid.preimage, laid.image, canvasWidth, canvasHeight, laid.whole.size,
    laid.preimage_fits, laid.image_fits, laid.apart, holds.margins, holds.image, holds.preimage,
    fun _ _ failed => laid.failing failed, fun _ _ => rfl, after_resampled plot calls⟩

/-- A call that asks for no samples at all, after one that succeeded: the image stays, and the
area next to it is replaced. -/
theorem after_calls_without_samples :
    let good : Call := ⟨.identity, ⟨⟨0.0, 0.0⟩, ⟨1.0, 1.0⟩⟩, 2, .standard⟩
    let poor : Call := { good with area := ⟨⟨-1.0, -1.0⟩, ⟨1.0, 1.0⟩⟩, quality := 0 }
    ∃ plot, make 1 1 .lightGray = .ok plot ∧
      (plot.after [good, poor]).ShowsMade ⟨131, 10, 1, 1⟩ (good.image ⟨131, 10, 1, 1⟩) ∧
      (plot.after [good, poor]).ShowsMade ⟨10, 10, 1, 1⟩ (poor.preimage ⟨10, 10, 1, 1⟩) := by
  intro good poor
  have made := make_eq .lightGray (show Raster.checkSides 1 1 = .ok () from rfl)
  refine ⟨_, made, ?_⟩
  generalize Plot.mk _ _ _ = plot at made ⊢
  have valid : good.isValid = true := by decide +kernel
  have succeeded : (plot.perform good).1.isOk = true :=
    (holds_after made []).laid.isOk_perform_iff.mpr ⟨valid, ⟨by decide, by decide⟩⟩
  have failed : ((plot.perform good).2.perform poor).1.isOk = false := by
    rw [← Bool.not_eq_true]
    exact fun allRight =>
      absurd ((holds_after made [good]).laid.isOk_perform_iff.mp allRight).2.1 (by decide)
  obtain ⟨preimage, image, -, -, -, -, -, -, -, imageShown, preimageShown, -⟩ :=
    after_calls made [good, poor]
  rw [image] at imageShown
  rw [preimage] at preimageShown
  have last : (plot.successes [good, poor]).getLast? = some good := by
    simp [successes, succeeded, failed]
  have lastValid : ([good, poor].filter Call.isValid).getLast? = some poor := by
    have validToo : poor.isValid = true := valid
    simp [valid, validToo]
  rw [last] at imageShown
  rw [lastValid] at preimageShown
  exact ⟨imageShown, preimageShown⟩

end Plot
end DomainColoring
