import DomainColoring.Text.Span
import Mathlib

/-!
# Parts of a text

Where a part of a text begins and ends, counted in bytes. A span that covers a part lies inside
of the text, and both its ends lie between two characters.
-/

namespace DomainColoring

namespace Text

@[simp] theorem byteLength_nil : byteLength [] = 0 := rfl

@[simp] theorem byteLength_cons (c : Char) (rest : List Char) :
    byteLength (c :: rest) = c.utf8Size + byteLength rest := rfl

@[simp] theorem byteLength_append (front behind : List Char) :
    byteLength (front ++ behind) = byteLength front + byteLength behind := by
  induction front with
  | nil => simp
  | cons c rest inductionHypothesis =>
    rw [List.cons_append, byteLength_cons, inductionHypothesis, byteLength_cons, Nat.add_assoc]

theorem byteLength_pos {text : List Char} (written : text ≠ []) : 0 < byteLength text := by
  cases text with
  | nil => exact absurd rfl written
  | cons c rest =>
    have size := c.utf8Size_pos
    rw [byteLength_cons]
    omega

/-- Each character takes a byte at least. -/
theorem length_le_byteLength (text : List Char) : text.length ≤ byteLength text := by
  induction text with
  | nil => simp
  | cons c rest inductionHypothesis =>
    have size := c.utf8Size_pos
    rw [List.length_cons, byteLength_cons]
    omega

/-- A text has as many bytes as characters exactly if each of them takes one byte. -/
theorem byteLength_eq_length_iff {text : List Char} :
    byteLength text = text.length ↔ ∀ c ∈ text, c.utf8Size = 1 := by
  induction text with
  | nil => simp
  | cons c rest inductionHypothesis =>
    have size := c.utf8Size_pos
    have atLeast := length_le_byteLength rest
    rw [List.forall_mem_cons, ← inductionHypothesis, byteLength_cons, List.length_cons]
    omega

/-- In front of the place behind a front stand the characters of the front. -/
theorem charsBefore?_byteLength (front behind : List Char) :
    charsBefore? (front ++ behind) (byteLength front) = some front.length := by
  induction front with
  | nil =>
    rw [charsBefore?.eq_def]
    rfl
  | cons c rest inductionHypothesis =>
    have size := c.utf8Size_pos
    have left : byteLength (c :: rest) - c.utf8Size = byteLength rest := by
      rw [byteLength_cons]
      omega
    have notFirst : byteLength (c :: rest) ≠ 0 := by
      rw [byteLength_cons]
      omega
    have fits : c.utf8Size ≤ byteLength (c :: rest) := Nat.le_add_right _ _
    rw [charsBefore?.eq_def, if_neg notFirst]
    simp only [List.cons_append, if_pos fits, left, inductionHypothesis]
    rfl

/-- Of two fronts of a text, the one with fewer bytes is a front of the other. -/
theorem prefix_of_byteLength_le {text short long : List Char} (shortFront : short <+: text)
    (longFront : long <+: text) (fewer : byteLength short ≤ byteLength long) : short <+: long := by
  rcases Nat.le_total short.length long.length with upTo | beyond
  · exact List.prefix_of_prefix_length_le shortFront longFront upTo
  · obtain ⟨more, rfl⟩ := List.prefix_of_prefix_length_le longFront shortFront beyond
    cases more with
    | nil => simp
    | cons c rest =>
      have size := byteLength_pos (List.cons_ne_nil c rest)
      rw [byteLength_append] at fewer
      omega

end Text

namespace Span

/-- A span covers a part of a text. -/
def Covers (span : Span) (text part : List Char) : Prop :=
  ∃ before after, text = before ++ part ++ after ∧ span.start = Text.byteLength before ∧
    span.stop = Text.byteLength (before ++ part)

variable {span : Span} {text part : List Char}

theorem Covers.start_le_stop (covers : span.Covers text part) : span.start ≤ span.stop := by
  obtain ⟨before, after, -, start, stop⟩ := covers
  rw [start, stop, Text.byteLength_append]
  omega

theorem Covers.stop_le (covers : span.Covers text part) : span.stop ≤ Text.byteLength text := by
  obtain ⟨before, after, shape, -, stop⟩ := covers
  rw [stop, shape, Text.byteLength_append _ after]
  omega

/-- From the start of one covered part up to the stop of another that does not end before it,
there is a part of the text. -/
theorem Covers.join {first second : Span} {firstPart secondPart : List Char}
    (firstCovers : first.Covers text firstPart) (secondCovers : second.Covers text secondPart)
    (ordered : first.start ≤ second.stop) :
    ∃ part, Covers ⟨first.start, second.stop⟩ text part := by
  obtain ⟨before, after, shape, start, -⟩ := firstCovers
  obtain ⟨before', after', shape', -, stop⟩ := secondCovers
  have front : before <+: text := ⟨firstPart ++ after, by rw [shape, List.append_assoc]⟩
  have longer : before' ++ secondPart <+: text := ⟨after', shape'.symm⟩
  rw [start, stop] at ordered
  obtain ⟨part, joined⟩ := Text.prefix_of_byteLength_le front longer ordered
  exact ⟨part, before, after', by rw [joined]; exact shape', start, by rw [joined]; exact stop⟩

end Span
end DomainColoring
