import DomainColoring.Settings

/-!
# The schema of settings files
-/

namespace DomainColoring.Settings.Schema

/-- A number of a width, never negative. -/
def unsigned (format : String) : List (String × Json) :=
  [("type", .text "integer"), ("format", .text format), ("minimum", .real 0.0)]

/-- A number with a fraction. -/
def real : List (String × Json) :=
  [("type", .text "number"), ("format", .text "double")]

/-- A value that is described elsewhere in the schema. -/
def reference (definition : String) : List (String × Json) :=
  [("allOf", .list [.record [("$ref", .text ("#/definitions/" ++ definition))]])]

/-- What a member is for and what stands for a missing one, before its type. -/
def member (description : Option String) (default : Json) (type : List (String × Json)) : Json :=
  .record ((description.map fun text => ("description", Json.text text)).toList
    ++ ("default", default) :: type)

/-- The members of settings by name. -/
def members : List (String × Json) :=
  let s := standard
  let segment (t : Segment) : Json := .record [("max", .real t.max), ("min", .real t.min)]
  let color (c : Color) : Json :=
    .record [("b", .natural c.b.toUInt64), ("g", .natural c.g.toUInt64),
      ("r", .natural c.r.toUInt64)]
  [
    ("background", member none (color s.background) (reference "Color")),
    ("height", member (some "Height of each plot panel in pixels.") (.natural s.height)
      (unsigned "uint")),
    ("hue", member none (segment s.hue) (reference "Segment")),
    ("lightness", member none (segment s.lightness) (reference "Segment")),
    ("mesh_count", member none (.natural s.meshCount) (unsigned "uint")),
    ("mesh_saturation", member none (.real s.meshSaturation) real),
    ("mesh_thickness", member
      (some "Mesh line thickness relative to the larger side of the area.")
      (.real s.meshThickness) real),
    ("quality", member (some "Samples per axis when drawing the image panel.")
      (.natural s.quality) (unsigned "uint")),
    ("saturation", member none (.real s.saturation) real),
    ("threads", member (some "Worker threads for rendering. None = rayon's default pool.") .null
      [("type", .list [.text "integer", .text "null"]), ("format", .text "uint"),
        ("minimum", .real 0.0)]),
    ("version", member none (.natural s.version) (unsigned "uint32")),
    ("width", member (some "Width of each plot panel in pixels.") (.natural s.width)
      (unsigned "uint")),
    ("z_order", member none s.depthKey.toJson (reference "ZOrder"))]

/-- A record all members of which have the same type and none may be missing. -/
def uniform (description : String) (names : List String) (type : List (String × Json)) : Json :=
  .record [
    ("description", .text description),
    ("type", .text "object"),
    ("required", .list (names.map .text)),
    ("properties", .record (names.map fun name => (name, .record type)))]

/-- The types that the members refer to. -/
def definitions : List (String × Json) :=
  [
    ("Color", uniform "RGB color with 8-bit channels." ["b", "g", "r"] (unsigned "uint8")),
    ("Segment", uniform ("Closed interval `[min, max]` with finite bounds. "
      ++ "Constructed via `Segment::new` which enforces `min <= max`.") ["max", "min"] real),
    ("ZOrder", .record [
      ("description", .text ("Which component of the *source* point decides a pixel when several "
        ++ "samples land on it. The larger value is drawn on top.")),
      ("type", .text "string"),
      ("enum", .list (DepthKey.all.map DepthKey.toJson))])]

/-- The schema as a value. -/
def json : Json :=
  .record [
    ("$schema", .text "http://json-schema.org/draft-07/schema#"),
    ("title", .text "RenderSettings"),
    ("description", .text ("Render configuration read from a JSON file. Every field is optional in "
      ++ "the file; missing ones take the built-in defaults. Command-line flags override "
      ++ "whatever the file says.")),
    ("type", .text "object"),
    ("properties", .record members),
    ("definitions", .record definitions)]

/-- The schema as text. -/
def text : String :=
  json.indented

end DomainColoring.Settings.Schema
