import DomainColoring.Expression.SyntaxError

/-!
# Splitting a text into tokens

White space and the signs of operators and parentheses separate words. A pair literal
reaches up to the first closing brace, whatever is in between, and the sign of an exponent
belongs to its number. `extent` says how far the item at the front of a text reaches, and
`classify` says what that item is; reading is repeating the two.
-/

namespace DomainColoring.Lexer

/-- The token that a sign is on its own. -/
def sign? : Char → Option Token
  | '+' => some .plus
  | '-' => some .minus
  | '*' => some .star
  | '/' => some .slash
  | '^' => some .caret
  | '(' => some .leftParen
  | ')' => some .rightParen
  | _ => none

/-- Whether a word, given backwards, is a decimal number up to an exponent mark. -/
def isExponentStart : List Char → Bool
  | [] => false
  | mark :: mantissa =>
    (mark = 'e' || mark = 'E') && mantissa.any Char.isDigit
      && mantissa.all fun c => c.isDigit || c = '.'

/-- Whether a character ends the word that is given backwards. -/
def endsWord (backwards : List Char) (c : Char) : Bool :=
  Text.isBlank c || c = '*' || c = '/' || c = '^' || c = '(' || c = ')' || c = '{' || c = '}'
    || ((c = '+' || c = '-') && !isExponentStart backwards)

/-- The rest of the word that is given backwards, and what comes after it. -/
def splitWord (backwards : List Char) : List Char → List Char × List Char
  | [] => ([], [])
  | c :: rest =>
    if endsWord backwards c then ([], c :: rest)
    else
      let (more, after) := splitWord (c :: backwards) rest
      (c :: more, after)

/-- The text up to and including the first closing brace, or all of it, and what comes after. -/
def splitPair : List Char → List Char × List Char
  | [] => ([], [])
  | c :: rest =>
    if c = '}' then ([c], rest)
    else
      let (more, after) := splitPair rest
      (c :: more, after)

/-- What follows the first character of an item and still belongs to it, and the text after
the item. -/
def extent (first : Char) (rest : List Char) : List Char × List Char :=
  if Text.isBlank first || first = '}' || (sign? first).isSome then ([], rest)
  else if first = '{' then splitPair rest
  else splitWord [first] rest

/-- The token that a word is. -/
def word? (word : List Char) : Option Token :=
  if word = [NamePattern.variableName] then some .argument
  else (PrefixOperator.ofWord? word).map .prefixWord <|> (Literal.read? word).map .number

/-- What an item is: nothing if it is white space, a token, or an error. -/
def classify (first : Char) (more : List Char) : Except SyntaxError.Cause (Option Token) :=
  if Text.isBlank first then .ok none
  else match sign? first with
    | some token => .ok (some token)
    | none =>
      if first = '{' then
        if more.getLast? = some '}' then
          match Literal.read? (first :: more) with
          | some value => .ok (some (.number value))
          | none => .error (.badLiteral (first :: more))
        else .error .unterminatedPair
      else if first = '}' then .error .unmatchedBrace
      else match word? (first :: more) with
        | some token => .ok (some token)
        | none => .error (.unknownWord (first :: more))

theorem splitWord_length (backwards text : List Char) :
    (splitWord backwards text).2.length ≤ text.length := by
  induction text generalizing backwards with
  | nil => simp [splitWord]
  | cons c rest ih =>
    rw [splitWord]
    split
    · simp
    · exact Nat.le_succ_of_le (ih (c :: backwards))

theorem splitPair_length (text : List Char) :
    (splitPair text).2.length ≤ text.length := by
  induction text with
  | nil => simp [splitPair]
  | cons c rest ih =>
    rw [splitPair]
    split
    · simp
    · exact Nat.le_succ_of_le ih

/-- An item takes at least its first character. -/
theorem extent_length (first : Char) (rest : List Char) :
    (extent first rest).2.length ≤ rest.length := by
  rw [extent]
  split
  · exact Nat.le_refl _
  · split
    · exact splitPair_length rest
    · exact splitWord_length [first] rest

/-- The tokens of a text that begins at a place, with a last one for the end of the input. -/
def tokensFrom (place : Nat) : List Char → Except SyntaxError (List Lexeme)
  | [] => .ok [⟨.endOfInput, ⟨place, place⟩⟩]
  | first :: rest =>
    let more := (extent first rest).1
    let after := (extent first rest).2
    let span : Span := ⟨place, place + Text.byteLength (first :: more)⟩
    match classify first more with
    | .error cause => .error ⟨cause, span⟩
    | .ok none => tokensFrom span.stop after
    | .ok (some token) => (tokensFrom span.stop after).map (⟨token, span⟩ :: ·)
termination_by text => text.length
decreasing_by
  all_goals
    have shorter := extent_length first rest
    simp only [List.length_cons]
    omega

/-- The tokens of a text. -/
def tokens (text : List Char) : Except SyntaxError (List Lexeme) :=
  tokensFrom 0 text

end DomainColoring.Lexer
