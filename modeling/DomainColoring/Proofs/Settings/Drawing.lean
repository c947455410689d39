import DomainColoring.Proofs.Outcome
import DomainColoring.Proofs.Plot
import DomainColoring.Settings

/-!
# Drawing what was accepted

A drawing looks at its sides first and then at its style, and nothing that comes after can fail.
Settings are validated by themselves, before there is a plot. What they are refused for, apart from
a version that is too new, is what a plot or a drawing would be refused for: so plots with validated
settings are made and drawn without a failure.
-/

namespace DomainColoring

/-- A failure that says what is wrong with a style. -/
def PlotError.IsAboutStyle : PlotError → Prop
  | .colorOutOfRange _ _ => True
  | .invalidMesh _ _ => True
  | .invalidSampling _ _ => True
  | _ => False

namespace Style

theorem isAboutStyle_of_checkComponent {component : ColorComponent} {value : Float}
    {refused : PlotError} (failed : checkComponent component value = .error refused) :
    refused.IsAboutStyle := by
  unfold checkComponent at failed
  split at failed
  · cases failed
  · cases failed
    trivial

theorem isAboutStyle_of_checkMesh {count : UInt64} {thickness : Float} {refused : PlotError}
    (failed : checkMesh count thickness = .error refused) : refused.IsAboutStyle := by
  unfold checkMesh at failed
  split at failed
  · cases failed
  · cases failed
    trivial

theorem isAboutStyle_of_check {counts : SampleCounts} {refused : PlotError}
    (failed : counts.check = .error refused) : refused.IsAboutStyle := by
  unfold SampleCounts.check at failed
  split at failed
  · cases failed
  · cases failed
    trivial

/-- A style is refused for what is wrong with it, and never for the sides of a raster. -/
theorem isAboutStyle_of_validate {style : Style} {refused : PlotError}
    (failed : style.validate = .error refused) : refused.IsAboutStyle := by
  simp only [validate, Outcome.bind_eq_error_iff] at failed
  rcases failed with component | ⟨_, -, component | ⟨_, -, component | ⟨_, -, component |
    ⟨_, -, component | ⟨_, -, component | ⟨_, -, mesh | ⟨_, -, sampling⟩⟩⟩⟩⟩⟩⟩
  iterate 6 exact isAboutStyle_of_checkComponent component
  · exact isAboutStyle_of_checkMesh mesh
  · split at sampling
    · exact isAboutStyle_of_check sampling
    · cases sampling

end Style

namespace Rendering

variable {f : NamedMap} {area : Area} {width height : UInt64} {extent : Extent} {style : Style}
  {order : List (UInt64 × UInt64)}

/-- There are always as many owners as a raster of this extent has pixels. -/
theorem ofPixels?_owners (g : SampleGrid) (colors : Option UInt64 → Color) :
    Raster.ofPixels? extent ((placeInOrder f area extent g order).owners.map colors) =
      some ⟨extent.width, extent.height,
        (placeInOrder f area extent g order).owners.map colors⟩ := by
  rw [Raster.ofPixels?, if_pos (by rw [Array.size_map, size_owners_placeInOrder])]

/-- A drawing is refused by the first of its two checks that fails, and by nothing else. -/
theorem render_eq_error_iff {refused : PlotError} :
    render f area width height style = .error refused ↔
      Raster.checkSides width height = .error refused ∨
        Raster.checkSides width height = .ok () ∧ style.validate = .error refused := by
  unfold render
  split
  · next e sides => simp [sides]
  · next sides =>
    cases valid : style.validate with
    | error e => simp [sides, bind, Except.bind]
    | ok _ => simp [sides, bind, Except.bind, pure, Except.pure, placeAll_eq, ofPixels?_owners]

theorem render_eq_invalidRaster_iff {w h : UInt64} :
    render f area width height style = .error (.invalidRaster w h) ↔
      Raster.checkSides width height = .error (.invalidRaster w h) := by
  rw [render_eq_error_iff, or_iff_left]
  rintro ⟨-, refused⟩
  exact Style.isAboutStyle_of_validate refused

end Rendering

/-- A call succeeds exactly if its style is valid apart from its number of samples, and its quality
is a number of samples that drawing can use. -/
theorem Plot.Laid.perform_eq_ok_iff {p : Plot} {width height : UInt64}
    (laid : p.Laid width height) (c : Call) :
    (p.perform c).1 = .ok () ↔
      { c.style with sampling := none }.validate = .ok () ∧
        (SampleCounts.square c.quality).check = .ok () := by
  rw [SampleCounts.check_square_iff, ← Call.isValid_iff, ← Call.Moderate, ← laid.isOk_perform_iff]
  constructor
  · intro succeeded
    rw [succeeded]
    rfl
  · exact Rendering.eq_ok_of_isOk

namespace Settings

/-- What is looked at in settings, apart from their version, is looked at in every drawing. -/
theorem validate_eq_ok_iff {s : Settings} :
    s.validate = .ok () ↔
      checkVersion s.version = .ok () ∧ Raster.checkSides s.width s.height = .ok () ∧
        (SampleCounts.square s.quality).check = .ok () ∧ s.style.validate = .ok () := by
  simp only [validate, Outcome.check_bind_eq_ok_iff]

/-- A drawing is made exactly if its sides and its style are accepted, and is refused by the first
of the two that is not; in whatever order samples are placed, there are as many pixels in the end as
there should be. Settings are accepted exactly if their version is supported and a plot can be made
and drawn with them, with any depth key and whatever was drawn on it before. -/
theorem drawing_fails_at_checks_only :
    (∀ (f : NamedMap) (area : Area) (width height : UInt64) (style : Style),
      ((∃ raster, Rendering.render f area width height style = .ok raster) ↔
        Raster.checkSides width height = .ok () ∧ style.validate = .ok ()) ∧
      (∀ refused, Rendering.render f area width height style = .error refused ↔
        Raster.checkSides width height = .error refused ∨
          Raster.checkSides width height = .ok () ∧ style.validate = .error refused) ∧
      (∀ extent, Extent.make width height = .ok extent → ∀ order,
        ∃ raster, Raster.ofPixels? extent
          ((Rendering.placeInOrder f area extent (Rendering.grid area width height style)
            order).owners.map (Rendering.colorOf (Rendering.grid area width height style)
              style.background)) = some raster) ∧
      ∀ w h, Rendering.render f area width height style = .error (.invalidRaster w h) ↔
        Raster.checkSides width height = .error (.invalidRaster w h)) ∧
    ∀ (s : Settings) (f : NamedMap) (area : Area) (depthKey : DepthKey),
      s.validate = .ok () ↔
        checkVersion s.version = .ok () ∧
          ∃ plot, Plot.make s.width s.height s.background = .ok plot ∧
            ∀ calls, ((plot.after calls).draw f area s.quality
              { s.style with depthKey := depthKey }).1 = .ok () := by
  refine ⟨fun f area width height style => ⟨Rendering.exists_render_iff,
    fun _ => Rendering.render_eq_error_iff, fun _ _ _ => ⟨_, Rendering.ofPixels?_owners _ _⟩,
    fun _ _ => Rendering.render_eq_invalidRaster_iff⟩, ?_⟩
  intro s f area depthKey
  let call : Plot.Call := ⟨f, area, s.quality, { s.style with depthKey := depthKey }⟩
  rw [validate_eq_ok_iff]
  refine and_congr_right fun _ => ⟨?_, ?_⟩
  · rintro ⟨sides, quality, valid⟩
    have made := Plot.make_eq s.background sides
    refine ⟨_, made, fun calls => ?_⟩
    exact ((Plot.holds_after made calls).laid.perform_eq_ok_iff call).mpr ⟨valid, quality⟩
  · rintro ⟨plot, made, drawn⟩
    obtain ⟨valid, quality⟩ :=
      ((Plot.holds_after made []).laid.perform_eq_ok_iff call).mp (drawn [])
    exact ⟨Plot.sides_of_make made, quality, valid⟩

/-- The standard settings are accepted, so that they can be drawn with; a raster without a column is
refused before its style, which is not valid either. -/
theorem drawing_fails_at_checks_only_standard :
    let area : Area := ⟨⟨-1.0, -1.0⟩, ⟨1.0, 1.0⟩⟩
    (∃ plot, Plot.make 1000 1000 .lightGray = .ok plot ∧
      (plot.draw .identity area 8000 { standard.style with depthKey := .magnitude }).1 = .ok ()) ∧
    Rendering.render .identity area 0 1 { Style.standard with saturation := 1.5 } =
      .error (.invalidRaster 0 1) ∧
    Rendering.render .identity area 1 1 { Style.standard with saturation := 1.5 } =
      .error (.colorOutOfRange .saturation 1.5) := by
  intro area
  obtain ⟨rendering, settings⟩ := drawing_fails_at_checks_only
  obtain ⟨-, plot, made, drawn⟩ := (settings standard .identity area .magnitude).mp rfl
  refine ⟨⟨plot, made, drawn []⟩, ?_, ?_⟩
  · exact ((rendering .identity area 0 1 _).2.1 _).mpr (.inl rfl)
  · exact ((rendering .identity area 1 1 _).2.1 _).mpr (.inr ⟨rfl, rfl⟩)

end Settings
end DomainColoring
