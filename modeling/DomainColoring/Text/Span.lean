/-!
# Spans of a text

Places in a text are counted in bytes of its UTF-8 form.
-/

namespace DomainColoring

/-- The places from `start` up to, and not including, `stop`. -/
structure Span where
  start : Nat
  stop : Nat
deriving DecidableEq, Repr

namespace Span

/-- The least span over two spans. -/
def merge (a b : Span) : Span :=
  ⟨min a.start b.start, max a.stop b.stop⟩

end Span

namespace Text

/-- The number of bytes of a text. -/
def byteLength (text : List Char) : Nat :=
  text.foldr (fun c size => c.utf8Size + size) 0

/-- The number of characters in front of a place, if the place lies between two characters. -/
def charsBefore? (text : List Char) (place : Nat) : Option Nat :=
  if place = 0 then some 0
  else match text with
    | [] => none
    | c :: rest =>
      if c.utf8Size ≤ place then (charsBefore? rest (place - c.utf8Size)).map (· + 1) else none

/-- A message over the text it is about, and a line of marks under the span. The marks start
under the first character of the span, or `start` characters in if that lies inside of one;
there is one mark for each byte of the span, and at least one. -/
def underlined (message : String) (text : List Char) (span : Span) : String :=
  let start := min span.start (byteLength text)
  let indent := (charsBefore? text start).getD start
  let width := max (span.stop - span.start) 1
  message ++ "\n  " ++ String.ofList text ++ "\n  "
    ++ String.ofList (List.replicate indent ' ' ++ List.replicate width '^')

end Text
end DomainColoring
