import DomainColoring.Proofs.Plot
import DomainColoring.Proofs.Raster.Overlay
import DomainColoring.Proofs.Rendering.Checked

/-!
# Plots with every number checked

A plot is made and drawn once more with every number checked: the sides of the canvas, where the
panels lie, the drawings in the panels, and the places of the pixels that are copied. With sides, a
style and a quality that are accepted this never fails, whatever was drawn on the plot before.
-/

namespace DomainColoring

theorem Style.validate_unsampled {style : Style} (valid : style.validate = .ok ()) :
    { style with sampling := none }.validate = .ok () := by
  cases sampling : style.sampling with
  | none =>
    have same : { style with sampling := none } = style := by rw [← sampling]
    rwa [same]
  | some counts =>
    have same : { style with sampling := some counts } = style := by rw [← sampling]
    rw [← same] at valid
    exact ((Style.validate_sampled_iff style counts).mp valid).1

namespace Plot

/-- A plot with panels of this size and nothing drawn, if its sides, its panels and its pixels are
numbers that are words. -/
def make? (width height : UInt64) (background : Color) : Option Plot := do
  let panels ← Word.mul? 2 width
  let margins ← Word.mul? 4 margin
  let canvasWidth ← Word.add? (← Word.add? panels margins) gap
  let canvasHeight ← Word.add? height (← Word.mul? 2 margin)
  let left ← Word.add? (← Word.add? (← Word.mul? 3 margin) gap) width
  let canvas ← (Raster.make canvasWidth canvasHeight background).toOption
  return {
    canvas := canvas
    preimage := ⟨margin, margin, width, height⟩
    image := ⟨left, margin, width, height⟩ }

/-- The plot with a raster laid over a panel, if all places on the way are words. -/
def lay? (p : Plot) (panel : Panel) (raster : Raster) : Option Plot := do
  let canvas ← p.canvas.blit? raster panel.left panel.top
  return { p with canvas := canvas }

/-- The plot with both panels drawn, if every number on the way is in range. -/
def draw? (p : Plot) (f : NamedMap) (area : Area) (quality : UInt64) (style : Style) :
    Option Plot := do
  let preimage ← Rendering.render? .identity area p.preimage.width p.preimage.height
    { style with sampling := none }
  let p ← p.lay? p.preimage preimage
  let image ← Rendering.render? f area p.image.width p.image.height
    { style with sampling := some (.square quality) }
  p.lay? p.image image

variable {p : Plot} {width height quality : UInt64} {style : Style}

theorem make?_eq (background : Color) (sides : Raster.checkSides width height = .ok ()) :
    ∃ p, make? width height background = some p ∧ make width height background = .ok p := by
  obtain ⟨canvasWidth, canvasHeight, left⟩ := toNat_sides sides
  obtain ⟨-, narrow, -, -⟩ := Raster.sides_of_checkSides sides
  have two : (2 : UInt64).toNat * width.toNat < 2 ^ 64 := Nat.lt_of_le_of_lt
    (Nat.mul_le_mul_left _ narrow) (by decide)
  have panels : (2 * width).toNat = 2 * width.toNat := Word.toNat_mul two
  have bordered : (2 * width + 4 * margin).toNat = 2 * width.toNat + 40 := by
    rw [UInt64.toNat_add, panels]
    exact Nat.mod_eq_of_lt (Nat.lt_of_le_of_lt (Nat.add_le_add_right
      (Nat.mul_le_mul_left 2 narrow) 40) (by decide))
  have margins : Word.mul? 4 margin = some (4 * margin) := rfl
  have withMargins : Word.add? (2 * width) (4 * margin) = some (2 * width + 4 * margin) :=
    Word.ofNat?_eq (by rw [bordered, panels]; rfl)
  have withGap : Word.add? (2 * width + 4 * margin) gap = some (2 * width + 4 * margin + gap) :=
    Word.ofNat?_eq (by rw [canvasWidth, bordered]; rfl)
  have upAndDown : Word.mul? 2 margin = some (2 * margin) := rfl
  have rows : Word.add? height (2 * margin) = some (height + 2 * margin) :=
    Word.ofNat?_eq canvasHeight
  have threeMargins : Word.mul? 3 margin = some (3 * margin) := rfl
  have start : Word.add? (3 * margin) gap = some (3 * margin + gap) := rfl
  have beside : Word.add? (3 * margin + gap) width = some (3 * margin + gap + width) :=
    Word.ofNat?_eq left
  have canvas : Raster.make (2 * width + 4 * margin + gap) (height + 2 * margin) background =
      .ok (.filled (canvasExtent sides) background) :=
    Raster.make_eq_ok_iff.mpr ⟨_, rfl, rfl, rfl⟩
  refine ⟨_, ?_, make_eq background sides⟩
  simp only [make?, Word.mul?_eq two, margins, withMargins, withGap, upAndDown, rows, threeMargins,
    start, beside, canvas, Except.toOption, Option.bind_eq_bind, Option.bind_some]
  rfl

theorem Laid.lay?_eq (laid : p.Laid width height) (panel : Panel) {raster : Raster}
    (whole : raster.Whole) : p.lay? panel raster = some (p.lay panel raster) := by
  rw [lay?, Raster.blit?_eq laid.whole whole]
  rfl

/-- The step of a run: both panels are drawn, whatever was drawn before. -/
theorem Laid.draw?_eq (laid : p.Laid width height) {c : Call}
    (valid : c.style.validate = .ok ())
    (sampled : (SampleCounts.square c.quality).check = .ok ()) :
    ∃ drawn, p.draw? c.f c.area c.quality c.style = some drawn ∧
      p.perform c = (.ok (), drawn) := by
  have unsampled := Style.validate_unsampled valid
  have validToo := (Style.validate_sampled_iff c.style (.square c.quality)).mpr
    ⟨unsampled, sampled⟩
  have preimageSides := congrArg (fun panel => Raster.checkSides panel.width panel.height)
    laid.preimage
  have imageSides := congrArg (fun panel => Raster.checkSides panel.width panel.height) laid.image
  obtain ⟨preimage, preimageChecked, preimageMade⟩ :=
    Rendering.render?_eq .identity c.area (preimageSides.trans laid.sides) unsampled
  obtain ⟨image, imageChecked, imageMade⟩ :=
    Rendering.render?_eq c.f c.area (imageSides.trans laid.sides) validToo
  obtain ⟨-, -, preimageWhole⟩ := Rendering.whole_of_render preimageMade
  obtain ⟨-, -, imageWhole⟩ := Rendering.whole_of_render imageMade
  refine ⟨(p.lay p.preimage preimage).lay p.image image, ?_,
    perform_of_ok preimageMade imageMade⟩
  have first := laid.lay?_eq p.preimage preimageWhole
  have second := (laid.lay p.preimage preimage).lay?_eq p.image imageWhole
  refine Option.bind_eq_some_iff.mpr ⟨preimage, preimageChecked, ?_⟩
  refine Option.bind_eq_some_iff.mpr ⟨_, first, ?_⟩
  exact Option.bind_eq_some_iff.mpr ⟨image, imageChecked, second⟩

/-- A canvas can be saved as a picture: its sides are numbers of 32 bits, and nothing else is wrong
with it. -/
theorem Laid.savable (laid : p.Laid width height) :
    p.canvas.width.toUInt32.toNat = p.canvas.width.toNat ∧
      p.canvas.height.toUInt32.toNat = p.canvas.height.toNat ∧
      p.canvas.pictureFault? = none := by
  obtain ⟨-, narrow, -, short⟩ := Raster.sides_of_checkSides laid.sides
  obtain ⟨canvasWidth, canvasHeight, -⟩ := laid.toNat_eq
  have wide : p.canvas.width.toNat < 2 ^ 32 := by omega
  have high : p.canvas.height.toNat < 2 ^ 32 := by omega
  have columns : p.canvas.width ≠ 0 := by
    intro none
    rw [none] at canvasWidth
    exact absurd canvasWidth.symm (Nat.succ_ne_zero _)
  have rows : p.canvas.height ≠ 0 := by
    intro none
    rw [none] at canvasHeight
    exact absurd canvasHeight.symm (Nat.succ_ne_zero _)
  refine ⟨by rw [UInt64.toNat_toUInt32, Nat.mod_eq_of_lt wide],
    by rw [UInt64.toNat_toUInt32, Nat.mod_eq_of_lt high], ?_⟩
  have whole := Nat.not_lt.mpr laid.whole.size.ge
  simp only [Raster.pictureFault?, Nat.pow_eq, Nat.not_le.mpr wide, Nat.not_le.mpr high, whole,
    columns, rows, if_false]

/-- With sides, a style and a quality that are accepted, no number of drawing and plotting leaves its
range. This holds of drawings with the samples that the style asks for and of those in both panels.
The canvas is made with the sides and the panels that it should have, and its sides are numbers of
32 bits. After any calls, drawing the plot with every number checked comes to the same as drawing
it. -/
theorem numbers_in_range (sides : Raster.checkSides width height = .ok ())
    (valid : style.validate = .ok ()) (sampled : (SampleCounts.square quality).check = .ok ())
    (background : Color) :
    (∀ f area, Rendering.InRange f area width height style ∧
      Rendering.InRange f area width height { style with sampling := none } ∧
      Rendering.InRange f area width height
        { style with sampling := some (.square quality) }) ∧
    ∃ plot, make? width height background = some plot ∧
      make width height background = .ok plot ∧
      ∀ calls, let p := plot.after calls
        p.canvas.width.toNat = 2 * width.toNat + 140 ∧
        p.canvas.height.toNat = height.toNat + 20 ∧
        p.image.left.toNat = 130 + width.toNat ∧
        p.canvas.width.toUInt32.toNat = p.canvas.width.toNat ∧
        p.canvas.height.toUInt32.toNat = p.canvas.height.toNat ∧
        p.canvas.pictureFault? = none ∧
        ∀ f area, ∃ drawn, p.draw? f area quality style = some drawn ∧
          p.draw f area quality style = (.ok (), drawn) := by
  have unsampled := Style.validate_unsampled valid
  have resampled := (Style.validate_sampled_iff style (.square quality)).mpr ⟨unsampled, sampled⟩
  refine ⟨fun f area => ⟨Rendering.inRange f area sides valid,
    Rendering.inRange f area sides unsampled, Rendering.inRange f area sides resampled⟩, ?_⟩
  obtain ⟨plot, checked, made⟩ := make?_eq background sides
  refine ⟨plot, checked, made, fun calls => ?_⟩
  have laid := (holds_after made calls).laid
  obtain ⟨canvasWidth, canvasHeight, left⟩ := laid.toNat_eq
  obtain ⟨columns, rows, savable⟩ := laid.savable
  exact ⟨canvasWidth, canvasHeight, left, columns, rows, savable, fun f area =>
    laid.draw?_eq (c := ⟨f, area, quality, style⟩) valid sampled⟩

/-- The greatest sides and the greatest quality: the last sample has the greatest number. -/
theorem numbers_in_range_greatest :
    let area : Area := ⟨⟨-1.0, -1.0⟩, ⟨1.0, 1.0⟩⟩
    let style : Style := { Style.standard with meshCount := 10000 }
    let quality : UInt64 := 1048576
    Raster.checkSides 16384 16384 = .ok () ∧ style.validate = .ok () ∧
      (SampleCounts.square quality).check = .ok () ∧
      ((Rendering.grid area 16384 16384 { style with sampling := some (.square quality) }).number
        1048575 1048575).toNat = 2 ^ 40 - 1 ∧
      ∃ plot, make 16384 16384 .lightGray = .ok plot ∧ plot.canvas.width.toNat = 32908 ∧
        (plot.draw .identity area quality style).1 = .ok () := by
  intro area style quality
  have sides : Raster.checkSides 16384 16384 = .ok () := rfl
  have valid : { Style.standard with meshCount := 10000 }.validate = .ok () := rfl
  have sampled : (SampleCounts.square quality).check = .ok () := rfl
  obtain ⟨drawings, plot, -, made, after⟩ := numbers_in_range sides valid sampled .lightGray
  obtain ⟨-, -, image⟩ := drawings .identity area
  obtain ⟨canvasWidth, -, -, -, -, -, draws⟩ := after []
  have wide : plot.canvas.width.toNat = 32908 := canvasWidth.trans rfl
  obtain ⟨drawn, -, succeeded⟩ := draws .identity area
  refine ⟨sides, valid, sampled, ?_, plot, made, wide, ?_⟩
  · rw [(image.number 1048575 1048575 ⟨by decide, by decide⟩).1]
    decide
  · exact congrArg Prod.fst succeeded

end Plot
end DomainColoring
