import DomainColoring.Json.Text
import Mathlib

/-!
# Strings in JSON texts are read as they were written

Every character of a string is read back to one piece, and the pieces of whole characters join to
the string.
-/

namespace DomainColoring.Json.Text

/-- What a written character is read to: control characters without a letter of their own are
written as units. -/
def piece (c : Char) : Piece :=
  if c.toNat < 0x20 ∧ c ∉ ['\x08', '\x0c', '\n', '\r', '\t'] then .unit c.toNat else .char c

theorem unit?_digitChar {value : Nat} (small : value < 0x20) :
    unit? '0' '0' (Nat.digitChar (value / 16)) (Nat.digitChar (value % 16)) = some value := by
  revert value
  decide

/-- The letter behind a backslash that stands for a character, if it is written that way. -/
theorem pieces?_escaped {letter c : Char} (other : letter ≠ 'u')
    (escaped : escaped? letter = some c) (text : List Char) :
    pieces? ('\\' :: letter :: text) =
      (pieces? text).map fun read => (.char c :: read.1, read.2) := by
  simp [pieces?, other, escaped]
  cases pieces? text <;> rfl

theorem pieces?_unit {value : Nat} (small : value < 0x20) (text : List Char) :
    pieces? ('\\' :: 'u' :: '0' :: '0' :: Nat.digitChar (value / 16) ::
        Nat.digitChar (value % 16) :: text) =
      (pieces? text).map fun read => (.unit value :: read.1, read.2) := by
  simp [pieces?, unit?_digitChar small]
  cases pieces? text <;> rfl

theorem pieces?_writeChar (c : Char) (text : List Char) :
    pieces? (writeChar c ++ text) =
      (pieces? text).map fun read => (piece c :: read.1, read.2) := by
  unfold writeChar
  by_cases quote : c = '"'
  · subst quote
    exact pieces?_escaped (by decide) rfl text
  by_cases backslash : c = '\\'
  · subst backslash
    exact pieces?_escaped (by decide) rfl text
  by_cases backspace : c = '\x08'
  · subst backspace
    exact pieces?_escaped (by decide) rfl text
  by_cases formFeed : c = '\x0c'
  · subst formFeed
    exact pieces?_escaped (by decide) rfl text
  by_cases lineFeed : c = '\n'
  · subst lineFeed
    exact pieces?_escaped (by decide) rfl text
  by_cases carriageReturn : c = '\r'
  · subst carriageReturn
    exact pieces?_escaped (by decide) rfl text
  by_cases tabulator : c = '\t'
  · subst tabulator
    exact pieces?_escaped (by decide) rfl text
  rw [if_neg quote, if_neg backslash, if_neg backspace, if_neg formFeed, if_neg lineFeed,
    if_neg carriageReturn, if_neg tabulator]
  by_cases control : c.toNat < 0x20
  · have unit : piece c = .unit c.toNat := by
      simp [piece, control, backspace, formFeed, lineFeed, carriageReturn, tabulator]
    rw [if_pos control, unit]
    exact pieces?_unit control text
  · have char : piece c = .char c := by simp [piece, control]
    rw [if_neg control, char]
    simp [pieces?, backslash, control]
    cases pieces? text <;> rfl

theorem join?_piece (c : Char) {pieces : List Piece} {text : List Char}
    (joined : join? pieces = some text) : join? (piece c :: pieces) = some (c :: text) := by
  unfold piece
  split
  · next control =>
    obtain ⟨small, -⟩ := control
    have noHalf : ¬ (0xd800 ≤ c.toNat ∧ c.toNat < 0xdc00) ∧
        ¬ (0xdc00 ≤ c.toNat ∧ c.toNat < 0xe000) ∧ ¬ (0xd800 ≤ c.toNat ∧ c.toNat < 0xe000) := by
      omega
    have alone : join? (.unit c.toNat :: pieces) = (join? pieces).map (c :: ·) := by
      cases pieces with
      | nil => simp [join?, noHalf, Char.ofNat_toNat]
      | cons next more => cases next <;> simp [join?, noHalf, Char.ofNat_toNat]
    rw [alone, joined]
    rfl
  · simp [join?, joined]

theorem pieces?_flatMap (text rest : List Char) :
    pieces? (text.flatMap writeChar ++ '"' :: rest) = some (text.map piece, rest) := by
  induction text with
  | nil => rfl
  | cons c more inductionHypothesis =>
    rw [List.flatMap_cons, List.append_assoc, pieces?_writeChar, inductionHypothesis]
    rfl

theorem join?_map (text : List Char) : join? (text.map piece) = some text := by
  induction text with
  | nil => rfl
  | cons c more inductionHypothesis => exact join?_piece c inductionHypothesis

end DomainColoring.Json.Text
