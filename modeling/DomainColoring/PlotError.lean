import DomainColoring.ComplexNumber
import DomainColoring.Json.Decoder
import DomainColoring.Limits
import DomainColoring.Text.Span

/-!
# What can go wrong with a plot

Every failure outside of an expression's own text, with one message for each. What a failing
disk or an unreadable file has to say for itself comes in as text.
-/

namespace DomainColoring

/-- The parts of a color that have to lie between zero and one. -/
inductive ColorComponent where
  | hue
  | saturation
  | lightness
  | meshSaturation
deriving DecidableEq, Repr

def ColorComponent.name : ColorComponent → String
  | hue => "hue"
  | saturation => "saturation"
  | lightness => "lightness"
  | meshSaturation => "mesh saturation"

/-- The failures of plotting. -/
inductive PlotError where
  /-- The right top corner does not lie above and to the right of the left bottom one. -/
  | invalidArea (leftBottom rightTop : ComplexNumber)
  | invalidSegment (min max : Float)
  | colorOutOfRange (component : ColorComponent) (value : Float)
  /-- A name pattern without a place for the argument. -/
  | invalidName (pattern : List Char)
  | invalidRaster (width height : UInt64)
  | invalidSampling (real imaginary : UInt64)
  | invalidMesh (count : UInt64) (thickness : Float)
  | expression (message : String) (span : Span)
  | storage (message : String)
  | settings (message : String)
  /-- A settings file that cannot be decoded. -/
  | unreadable (reason : DecodeError)
  | picture (message : String)
  | threadPool (message : String)

namespace PlotError

private def number (x : Float) : String :=
  Decimal.Layout.plain.text x

private def count (n : UInt64) : String :=
  toString n.toNat

private def point (z : ComplexNumber) : String :=
  "(" ++ number z.re ++ ", " ++ number z.im ++ ")"

/-- The kind of a failure, as programs see it. -/
def code : PlotError → String
  | invalidArea _ _ => "InvalidArea"
  | invalidSegment _ _ => "InvalidSegment"
  | colorOutOfRange _ _ => "ColorOutOfRange"
  | invalidName _ => "InvalidName"
  | invalidRaster _ _ => "InvalidRaster"
  | invalidSampling _ _ => "InvalidSampling"
  | invalidMesh _ _ => "InvalidMesh"
  | expression _ _ => "Parse"
  | storage _ => "Io"
  | settings _ => "Settings"
  | unreadable _ => "Settings"
  | picture _ => "Image"
  | threadPool _ => "ThreadPool"

def message : PlotError → String
  | invalidArea leftBottom rightTop =>
    "Invalid area: right-top " ++ point rightTop
      ++ " should have greater real and imaginary parts than left-bottom " ++ point leftBottom
  | invalidSegment min max =>
    "Invalid segment [" ++ number min ++ "; " ++ number max
      ++ "]: bounds must be finite and min <= max"
  | colorOutOfRange component value =>
    component.name ++ " = " ++ number value ++ " should be in range [0; 1]"
  | invalidName pattern =>
    "Name pattern \"" ++ String.ofList pattern
      ++ "\" should contain \"#\" as argument placeholder"
  | invalidRaster width height =>
    "Invalid raster size " ++ count width ++ "x" ++ count height ++ ": sides must be in [1; "
      ++ count Limits.rasterSide ++ "]"
  | invalidSampling real imaginary =>
    "Invalid sample grid " ++ count real ++ "x" ++ count imaginary ++ ": counts must be in [1; "
      ++ count Limits.samplesPerAxis ++ "]"
  | invalidMesh lines thickness =>
    "Invalid mesh (" ++ count lines ++ " lines, thickness " ++ number thickness ++ "): at most "
      ++ count Limits.meshLines ++ " lines of finite non-negative thickness"
  | expression message span =>
    "Invalid expression at " ++ toString span.start ++ ": " ++ message
  | storage message => "I/O error: " ++ message
  | settings message => "Settings error: " ++ message
  | unreadable reason => "Settings error: " ++ reason.message
  | picture message => "Image error: " ++ message
  | threadPool message => "Thread pool error: " ++ message

private def pointJson (z : ComplexNumber) : Json :=
  .list [.real z.re, .real z.im]

/-- The particulars of a failure, as programs see them, with names in alphabetical order. -/
def detail : PlotError → Json
  | invalidArea leftBottom rightTop =>
    .record [("left_bottom", pointJson leftBottom), ("right_top", pointJson rightTop)]
  | invalidSegment min max => .record [("max", .real max), ("min", .real min)]
  | colorOutOfRange component value =>
    .record [("component", .text component.name), ("value", .real value)]
  | invalidName pattern => .record [("pattern", .string pattern)]
  | invalidRaster width height => .record [("height", .natural height), ("width", .natural width)]
  | invalidSampling real imaginary =>
    .record [("imaginary", .natural imaginary), ("real", .natural real)]
  | invalidMesh lines thickness =>
    .record [("count", .natural lines), ("thickness", .real thickness)]
  | expression message span =>
    .record [("end", .natural (UInt64.ofNat span.stop)), ("message", .text message),
      ("start", .natural (UInt64.ofNat span.start))]
  | storage message => .record [("message", .text message)]
  | settings message => .record [("message", .text message)]
  | unreadable reason => .record [("message", .text reason.message)]
  | picture message => .record [("message", .text message)]
  | threadPool message => .record [("message", .text message)]

end PlotError
end DomainColoring
