import DomainColoring.Proofs.Expression.Grammar

/-!
# The parser and the grammar

On tokens that end with the end of the input, and nowhere else, the parser finds exactly the
derivations of the grammar. That it finds them is shown for a number of steps that is linear in
the number of tokens, and stays below the number that `Parser.parse` allows.
-/

namespace DomainColoring

namespace Reading

theorem andThen_eq_done_iff {α β : Type} {reading : Reading α} {next : α → List Lexeme → Reading β}
    {value : β} {rest : List Lexeme} :
    reading.andThen next = .done value rest ↔
      ∃ found between, reading = .done found between ∧ next found between = .done value rest := by
  cases reading with
  | unfinished => simp [andThen]
  | failed error rest => simp [andThen]
  | done found between =>
    simp only [andThen]
    constructor
    · intro reached
      exact ⟨found, between, rfl, reached⟩
    · rintro ⟨_, _, same, reached⟩
      cases same
      exact reached

end Reading

namespace Parser

open Grammar

theorem advance_cons {lexeme : Lexeme} {rest : List Lexeme} (more : rest ≠ []) :
    advance (lexeme :: rest) = rest := by
  cases rest with
  | nil => exact absurd rfl more
  | cons next rest => rfl

theorem afterOperator_eq {α : Type} {symbol : List Char} {lexeme : Lexeme} {rest : List Lexeme}
    {next : List Lexeme → Reading α} (more : rest ≠ [])
    (starts : (peek rest).startsOperand = true) :
    afterOperator symbol (lexeme :: rest) next = next rest := by
  simp [afterOperator, advance_cons more, starts]

theorem afterOperator_eq_done {α : Type} {symbol : List Char} {tokens : List Lexeme}
    {next : List Lexeme → Reading α} {value : α} {rest : List Lexeme}
    (reached : afterOperator symbol tokens next = .done value rest) :
    next (advance tokens) = .done value rest := by
  simp only [afterOperator] at reached
  split at reached
  · exact reached
  · cases reached

@[simp] theorem peek_cons (lexeme : Lexeme) (rest : List Lexeme) :
    peek (lexeme :: rest) = lexeme.token := rfl

theorem readPart_unprefixed {steps : Nat} {tokens : List Lexeme}
    (noPrefix : (peek tokens).prefixOperator? = none) :
    readPart (steps + 1) tokens = readAtom steps tokens := by
  rw [readPart, noPrefix]

/-- An atom with a prefix operator is read as a part. -/
theorem readAtom_prefixed {steps : Nat} {tokens : List Lexeme} {op : PrefixOperator}
    (isOperator : (peek tokens).prefixOperator? = some op) :
    readAtom (steps + 1) tokens = readPart steps tokens := by
  rw [readAtom]
  cases token : peek tokens with
  | prefixWord word => rfl
  | minus => rfl
  | _ =>
    rw [token] at isOperator
    cases isOperator

/-- Reading behind an opening parenthesis that is not closed at once. -/
theorem readAtom_of_leftParen {steps : Nat} {tokens : List Lexeme}
    (opening : peek tokens = .leftParen) (filled : closes (peek (advance tokens)) = false) :
    readAtom (steps + 1) tokens =
      (readLayer steps .sum (advance tokens)).andThen fun inner rest =>
        if closes (peek rest) then .done inner (advance rest)
        else
          .failed ⟨.unclosedParenthesis (peek rest), (place tokens).merge (place rest)⟩ rest := by
  rw [readAtom]
  simp only [opening, filled]
  rfl

/-- A derivation that is not of what follows an operand begins with a token that can begin
one. -/
theorem exists_startsOperand {s : Symbol} (d : Derivation s) (whole : ∀ l, s ≠ .rest l) :
    ∃ first others, d.tokens = first :: others ∧ first.startsOperand = true := by
  induction d with
  | operands first others firstStarts =>
    obtain ⟨token, more, tokens, starts⟩ := firstStarts (by simp)
    exact ⟨token, more ++ others.tokens, by simp [Derivation.tokens, tokens], starts⟩
  | product inner innerStarts => exact innerStarts (by simp)
  | power inner innerStarts => exact innerStarts (by simp)
  | single inner innerStarts => exact innerStarts (by simp)
  | @stop l => exact absurd rfl (whole l)
  | @more l => exact absurd rfl (whole l)
  | prefixed sign op isOperator inner =>
    refine ⟨sign, inner.tokens, rfl, ?_⟩
    cases sign <;> first | rfl | cases isOperator
  | argument => exact ⟨_, _, rfl, rfl⟩
  | number value => exact ⟨_, _, rfl, rfl⟩
  | parenthesized inner => exact ⟨_, _, rfl, rfl⟩

/-- The reader of a symbol comes to a meaning. Of a part, it does so as an atom as well. -/
def Reads (steps : Nat) : (s : Symbol) → Meaning s → (tokens rest : List Lexeme) → Prop
  | .layer l, e, tokens, rest => readLayer steps l tokens = .done e rest
  | .operand l, e, tokens, rest => readTighter steps l tokens = .done e rest
  | .rest l, grow, tokens, rest => ∀ left, readChain steps l left tokens = .done (grow left) rest
  | .part, e, tokens, rest =>
    readPart steps tokens = .done e rest ∧ readAtom (steps + 1) tokens = .done e rest

/-- A part without prefix operator is what its atom is, given a step more for each of the two. -/
theorem reads_part_of_readAtom {k : Nat} {e : Expression} {tokens rest : List Lexeme}
    (noPrefix : (peek tokens).prefixOperator? = none)
    (read : ∀ n, k ≤ n → readAtom (n + 1) tokens = .done e rest) :
    Reads (k + 2) .part e tokens rest :=
  ⟨(readPart_unprefixed noPrefix).trans (read k (Nat.le_refl k)),
    read (k + 2) (Nat.le_add_right k 2)⟩

/-- How many steps a symbol needs beside those for its tokens, compared to a part. -/
def surplus : Symbol → Nat
  | .part => 0
  | .operand .power => 1
  | .layer .power => 2
  | .operand .product => 3
  | .layer .product => 4
  | .operand .sum => 5
  | .layer .sum => 6
  | .rest _ => 7

theorem peek_append {lexemes rest : List Lexeme} {token : Token} {others : List Token}
    (same : lexemes.map Lexeme.token = token :: others) : peek (lexemes ++ rest) = token := by
  obtain ⟨first, more, rfl, rfl, -⟩ := List.map_eq_cons_iff.mp same
  rfl

theorem ne_nil_of_exists {s : Symbol} {d : Derivation s} {lexemes : List Lexeme}
    (whole : ∀ l, s ≠ .rest l) (same : lexemes.map Lexeme.token = d.tokens) :
    0 < lexemes.length := by
  obtain ⟨first, others, tokens, -⟩ := exists_startsOperand d whole
  rw [tokens] at same
  have length := congrArg List.length same
  simp only [List.length_map, List.length_cons] at length
  omega

theorem starts_append {s : Symbol} {d : Derivation s} {lexemes : List Lexeme}
    (whole : ∀ l, s ≠ .rest l) (same : lexemes.map Lexeme.token = d.tokens)
    (rest : List Lexeme) : (peek (lexemes ++ rest)).startsOperand = true := by
  obtain ⟨first, others, tokens, starts⟩ := exists_startsOperand d whole
  rw [tokens] at same
  rw [peek_append same]
  exact starts

/-- A derivation is found in front of tokens that do not continue it, within a number of steps that
is linear in the number of its tokens. -/
def Found {s : Symbol} (d : Derivation s) : Prop :=
  ∀ {n : Nat} {lexemes rest : List Lexeme}, lexemes.map Lexeme.token = d.tokens →
    rest ≠ [] → Stops s (rest.map Lexeme.token) → 8 * lexemes.length + surplus s ≤ n + 6 →
    Reads n s d.meaning (lexemes ++ rest) rest

/-- What follows an operand in its layer lets the operand be found in front of it. -/
theorem Found.readTighter_append {l : Layer} {d : Derivation (.operand l)} (found : Found d)
    {others : Derivation (.rest l)} {front back rest : List Lexeme} {k : Nat}
    (frontSame : front.map Lexeme.token = d.tokens)
    (backSame : back.map Lexeme.token = others.tokens) (more : rest ≠ [])
    (stops : Stops (.rest l) (rest.map Lexeme.token))
    (enough : 8 * front.length + surplus (.operand l) ≤ k + 6) :
    readTighter k l (front ++ (back ++ rest)) = .done d.meaning (back ++ rest) := by
  have stopsOthers := others.stops_others stops
  rw [← backSame, ← List.map_append] at stopsOthers
  exact found frontSame (by simp [more]) stopsOthers enough

theorem Found.operands {l : Layer} {first : Derivation (.operand l)} {others : Derivation (.rest l)}
    (firstFound : Found first) (othersFound : Found others) :
    Found (.operands first others) := by
  intro steps lexemes rest same more stops enough
  obtain ⟨front, back, rfl, frontSame, backSame⟩ := List.map_eq_append_iff.mp same
  have positive := ne_nil_of_exists (by simp) frontSame
  rw [List.length_append] at enough
  have surpluses : surplus (.operand l) + 1 = surplus (.layer l) := by cases l <;> rfl
  obtain ⟨k, rfl⟩ : ∃ k, steps = k + 1 := ⟨steps - 1, by omega⟩
  have reached := firstFound.readTighter_append frontSame backSame more stops (k := k) (by omega)
  have chained := othersFound backSame more stops (n := k) (by
    simp only [surplus]
    omega) first.meaning
  rw [Reads, readLayer, List.append_assoc, reached]
  exact chained

/-- An operand that is nothing but a derivation from another symbol is found a step after this. -/
theorem Found.operand {s : Symbol} {l : Layer} {inner : Derivation s}
    {outer : Derivation (.operand l)} (found : Found inner)
    (sameTokens : outer.tokens = inner.tokens)
    (stopsInner : ∀ tokens, Stops (.operand l) tokens → Stops s tokens)
    (oneMore : surplus (.operand l) = surplus s + 1)
    (passes : ∀ k tokens rest, Reads k s inner.meaning tokens rest →
      readTighter (k + 1) l tokens = .done outer.meaning rest) : Found outer := by
  intro steps lexemes rest same more stops enough
  have positive := ne_nil_of_exists (by simp) same
  obtain ⟨k, rfl⟩ : ∃ k, steps = k + 1 := ⟨steps - 1, by omega⟩
  exact passes k _ rest
    (found (same.trans sameTokens) more (stopsInner _ stops) (n := k) (by omega))

theorem found_stop (l : Layer) : Found (.stop : Derivation (.rest l)) := by
  intro steps lexemes rest same more stops enough left
  obtain rfl : lexemes = [] := List.map_eq_nil_iff.mp same
  simp only [surplus] at enough
  obtain ⟨k, rfl⟩ : ∃ k, steps = k + 1 := ⟨steps - 1, by omega⟩
  obtain ⟨next, others, rfl⟩ := List.exists_cons_of_ne_nil more
  have none : l.operator? (peek (next :: others)) = none :=
    operator?_eq_none (stops next.token rfl)
  rw [List.nil_append, readChain, none]
  rfl

theorem Found.more {l : Layer} {sign : Token} {op : InfixOperator}
    (isOperator : l.operator? sign = some op) {right : Derivation (.operand l)}
    {others : Derivation (.rest l)} (rightFound : Found right) (othersFound : Found others) :
    Found (.more sign op isOperator right others) := by
  intro steps lexemes rest same more stops enough left
  obtain ⟨signLexeme, both, rfl, rfl, bothSame⟩ := List.map_eq_cons_iff.mp same
  obtain ⟨front, back, rfl, frontSame, backSame⟩ := List.map_eq_append_iff.mp bothSame
  simp only [surplus, List.length_cons, List.length_append] at enough
  obtain ⟨k, rfl⟩ : ∃ k, steps = k + 1 := ⟨steps - 1, by omega⟩
  have reached := rightFound.readTighter_append frontSame backSame more stops (k := k) (by
    cases l <;> simp only [surplus] <;> omega)
  have chained := othersFound backSame more stops (n := k) (by
    simp only [surplus]
    omega) (.infixed op left right.meaning)
  have starts := starts_append (by simp) frontSame (back ++ rest)
  rw [List.cons_append, List.append_assoc, readChain]
  simp only [peek, isOperator]
  rw [afterOperator_eq (by simp [more]) starts, reached]
  exact chained

theorem Found.prefixed {sign : Token} {op : PrefixOperator}
    (isOperator : sign.prefixOperator? = some op) {inner : Derivation .part}
    (found : Found inner) : Found (.prefixed sign op isOperator inner) := by
  intro steps lexemes rest same more stops enough
  obtain ⟨signLexeme, behind, rfl, rfl, behindSame⟩ := List.map_eq_cons_iff.mp same
  have positive := ne_nil_of_exists (by simp) behindSame
  simp only [surplus, List.length_cons] at enough
  obtain ⟨k, rfl⟩ : ∃ k, steps = k + 1 + 1 := ⟨steps - 2, by omega⟩
  have reached := found behindSame more (stops_part _) (n := k) (by simp only [surplus]; omega)
  have starts := starts_append (by simp) behindSame rest
  have read : readPart (k + 1 + 1) (signLexeme :: behind ++ rest) =
      .done (.prefixed op inner.meaning) rest := by
    rw [List.cons_append, readPart]
    simp only [peek, isOperator]
    rw [afterOperator_eq (by simp [more]) starts, reached.2]
    rfl
  have prefixedHere : (peek (signLexeme :: behind ++ rest)).prefixOperator? = some op :=
    isOperator
  exact ⟨read, (readAtom_prefixed prefixedHere).trans read⟩

/-- A part that is a single token is found if its token is read as an atom. -/
theorem found_token {token : Token} {d : Derivation .part} (isToken : d.tokens = [token])
    (noPrefix : token.prefixOperator? = none)
    (read : ∀ n lexeme rest, lexeme.token = token → rest ≠ [] →
      readAtom (n + 1) (lexeme :: rest) = .done d.meaning rest) : Found d := by
  intro steps lexemes rest same more stops enough
  obtain ⟨lexeme, none, rfl, sameToken, isNil⟩ := List.map_eq_cons_iff.mp (same.trans isToken)
  obtain rfl : none = [] := List.map_eq_nil_iff.mp isNil
  simp only [surplus, List.length_cons, List.length_nil] at enough
  obtain ⟨k, rfl⟩ : ∃ k, steps = k + 2 := ⟨steps - 2, by omega⟩
  apply reads_part_of_readAtom
  · rw [List.singleton_append, peek_cons, sameToken, noPrefix]
  · exact fun n _ => read n lexeme rest sameToken more

theorem Found.parenthesized {inner : Derivation (.layer .sum)} (found : Found inner) :
    Found (.parenthesized inner) := by
  intro steps lexemes rest same more stops enough
  obtain ⟨opening, behind, rfl, token, behindSame⟩ := List.map_eq_cons_iff.mp same
  obtain ⟨front, closing, rfl, frontSame, closingSame⟩ := List.map_eq_append_iff.mp behindSame
  obtain ⟨closing, none, rfl, closingToken, isNil⟩ := List.map_eq_cons_iff.mp closingSame
  obtain rfl : none = [] := List.map_eq_nil_iff.mp isNil
  simp only [surplus, List.length_cons, List.length_append, List.length_nil] at enough
  obtain ⟨k, rfl⟩ : ∃ k, steps = k + 1 + 1 := ⟨steps - 2, by omega⟩
  have stopsInner : Stops (.layer .sum) ((closing :: rest).map Lexeme.token) := by
    rw [List.map_cons, closingToken]
    exact stops_rightParen _ _
  have starts := starts_append (by simp) frontSame (closing :: rest)
  have opens : closes (peek (front ++ closing :: rest)) = false := by
    revert starts
    cases peek (front ++ closing :: rest) <;> simp [closes, Token.startsOperand]
  have read : ∀ n, k ≤ n → readAtom (n + 1) (opening :: (front ++ closing :: rest)) =
      .done inner.meaning rest := by
    intro n grown
    have reached : readLayer n .sum (front ++ closing :: rest) = _ :=
      found frontSame (by simp) stopsInner (by simp only [surplus]; omega)
    have inside : advance (opening :: (front ++ closing :: rest)) = front ++ closing :: rest :=
      advance_cons (by simp)
    have opened : peek (opening :: (front ++ closing :: rest)) = .leftParen := token
    rw [readAtom_of_leftParen opened (by rw [inside]; exact opens), inside, reached]
    simp [Reading.andThen, closingToken, closes, advance_cons more]
  have noPrefix : (peek (opening :: (front ++ closing :: rest))).prefixOperator? = none := by
    rw [peek_cons, token]
    rfl
  have shape : opening :: (front ++ [closing]) ++ rest =
      opening :: (front ++ closing :: rest) := by simp
  rw [shape]
  exact reads_part_of_readAtom noPrefix read

/-- Every derivation is found. -/
theorem found {s : Symbol} (d : Derivation s) : Found d := by
  induction d with
  | operands first others firstFound othersFound => exact firstFound.operands othersFound
  | product inner innerFound =>
    refine innerFound.operand (l := .sum) rfl (fun _ stops => stops) rfl ?_
    intro k tokens rest reads
    rw [readTighter]
    exact reads
  | power inner innerFound =>
    refine innerFound.operand (l := .product) rfl (fun _ stops => stops) rfl ?_
    intro k tokens rest reads
    rw [readTighter]
    exact reads
  | single inner innerFound =>
    refine innerFound.operand rfl (fun _ _ => stops_part _) rfl ?_
    intro k tokens rest reads
    rw [readTighter]
    exact reads.1
  | stop => exact found_stop _
  | more sign op isOperator right others rightFound othersFound =>
    exact Found.more isOperator rightFound othersFound
  | prefixed sign op isOperator inner innerFound => exact Found.prefixed isOperator innerFound
  | argument =>
    refine found_token rfl rfl fun n lexeme rest token more => ?_
    simp [readAtom, peek, token, advance_cons more, Derivation.meaning]
  | number value =>
    refine found_token rfl rfl fun n lexeme rest token more => ?_
    simp [readAtom, peek, token, advance_cons more, Derivation.meaning]
  | parenthesized inner innerFound => exact innerFound.parenthesized

/-- The last token, and no other, is the end of the input. -/
def Ended (tokens : List Lexeme) : Prop :=
  ∃ before last, tokens = before ++ [last] ∧ last.token = .endOfInput ∧
    ∀ lexeme ∈ before, lexeme.token ≠ .endOfInput

/-- In front of the end of the input, stepping over a token leaves those behind it. -/
theorem Ended.advance {tokens : List Lexeme} (ended : Ended tokens)
    (inside : peek tokens ≠ .endOfInput) :
    ∃ first, tokens = first :: advance tokens ∧ first.token = peek tokens ∧
      Ended (advance tokens) := by
  obtain ⟨before, last, rfl, isEnd, others⟩ := ended
  cases before with
  | nil => exact absurd isEnd inside
  | cons first more =>
    have behind : Parser.advance (first :: more ++ [last]) = more ++ [last] :=
      advance_cons (by simp)
    rw [behind]
    exact ⟨first, rfl, rfl, more, last, rfl, isEnd,
      fun lexeme member => others lexeme (List.mem_cons_of_mem _ member)⟩

/-- A derivation of this meaning takes up the tokens in front of those that are left. -/
def Derived (s : Symbol) (meaning : Meaning s) (tokens rest : List Lexeme) : Prop :=
  Ended rest ∧ ∃ (d : Derivation s) (lexemes : List Lexeme), tokens = lexemes ++ rest ∧
    lexemes.map Lexeme.token = d.tokens ∧ d.meaning = meaning

/-- What is read within a number of steps was derived. -/
structure Sound (steps : Nat) : Prop where
  layer : ∀ {l tokens e rest}, Ended tokens → readLayer steps l tokens = .done e rest →
    Derived (.layer l) e tokens rest
  operand : ∀ {l tokens e rest}, Ended tokens → readTighter steps l tokens = .done e rest →
    Derived (.operand l) e tokens rest
  chain : ∀ {l left tokens e rest}, Ended tokens → readChain steps l left tokens = .done e rest →
    ∃ grow, Derived (.rest l) grow tokens rest ∧ grow left = e
  part : ∀ {tokens e rest}, Ended tokens → readPart steps tokens = .done e rest →
    Derived .part e tokens rest
  atom : ∀ {tokens e rest}, Ended tokens → readAtom steps tokens = .done e rest →
    Derived .part e tokens rest

theorem Sound.layer_succ {steps : Nat} (sound : Sound steps) {l : Layer} {tokens rest : List Lexeme}
    {e : Expression} (ended : Ended tokens)
    (read : readLayer (steps + 1) l tokens = .done e rest) : Derived (.layer l) e tokens rest := by
  rw [readLayer, Reading.andThen_eq_done_iff] at read
  obtain ⟨left, between, readFirst, readOthers⟩ := read
  obtain ⟨endedBetween, first, front, rfl, frontSame, rfl⟩ := sound.operand ended readFirst
  obtain ⟨grow, ⟨endedRest, others, back, rfl, backSame, rfl⟩, rfl⟩ :=
    sound.chain endedBetween readOthers
  refine ⟨endedRest, .operands first others, front ++ back, ?_, ?_, rfl⟩
  · rw [List.append_assoc]
  · rw [List.map_append, frontSame, backSame, Derivation.tokens]

theorem Sound.operand_succ {steps : Nat} (sound : Sound steps) {l : Layer}
    {tokens rest : List Lexeme} {e : Expression} (ended : Ended tokens)
    (read : readTighter (steps + 1) l tokens = .done e rest) :
    Derived (.operand l) e tokens rest := by
  cases l with
  | sum =>
    obtain ⟨endedRest, inner, lexemes, shape, same, rfl⟩ := sound.layer ended read
    exact ⟨endedRest, .product inner, lexemes, shape, same, rfl⟩
  | product =>
    obtain ⟨endedRest, inner, lexemes, shape, same, rfl⟩ := sound.layer ended read
    exact ⟨endedRest, .power inner, lexemes, shape, same, rfl⟩
  | power =>
    obtain ⟨endedRest, inner, lexemes, shape, same, rfl⟩ := sound.part ended read
    exact ⟨endedRest, .single inner, lexemes, shape, same, rfl⟩

theorem Sound.chain_succ {steps : Nat} (sound : Sound steps) {l : Layer} {left e : Expression}
    {tokens rest : List Lexeme} (ended : Ended tokens)
    (read : readChain (steps + 1) l left tokens = .done e rest) :
    ∃ grow, Derived (.rest l) grow tokens rest ∧ grow left = e := by
  rw [readChain] at read
  cases isOperator : l.operator? (peek tokens) with
  | none =>
    rw [isOperator] at read
    cases read
    exact ⟨fun left => left, ⟨ended, .stop, [], rfl, rfl, rfl⟩, rfl⟩
  | some op =>
    simp only [isOperator] at read
    have inside : peek tokens ≠ .endOfInput := by
      intro atEnd
      rw [atEnd] at isOperator
      cases l <;> cases isOperator
    obtain ⟨sign, shape, token, endedBehind⟩ := ended.advance inside
    have readBoth := afterOperator_eq_done read
    rw [Reading.andThen_eq_done_iff] at readBoth
    obtain ⟨found, between, readRight, readOthers⟩ := readBoth
    obtain ⟨endedBetween, right, front, frontShape, frontSame, rfl⟩ :=
      sound.operand endedBehind readRight
    obtain ⟨grow, ⟨endedRest, others, back, rfl, backSame, rfl⟩, rfl⟩ :=
      sound.chain endedBetween readOthers
    let d : Derivation (.rest l) := .more _ op isOperator right others
    refine ⟨_, ⟨endedRest, d, sign :: (front ++ back), ?_, ?_, rfl⟩, rfl⟩
    · rw [shape, frontShape, List.cons_append, List.append_assoc]
    · rw [List.map_cons, List.map_append, frontSame, backSame, token, Derivation.tokens]

theorem Sound.part_succ {steps : Nat} (sound : Sound steps) {e : Expression}
    {tokens rest : List Lexeme} (ended : Ended tokens)
    (read : readPart (steps + 1) tokens = .done e rest) : Derived .part e tokens rest := by
  cases isOperator : (peek tokens).prefixOperator? with
  | none =>
    rw [readPart_unprefixed isOperator] at read
    exact sound.atom ended read
  | some op =>
    rw [readPart] at read
    simp only [isOperator] at read
    have inside : peek tokens ≠ .endOfInput := by
      intro atEnd
      rw [atEnd] at isOperator
      cases isOperator
    obtain ⟨sign, shape, token, endedBehind⟩ := ended.advance inside
    have readInner := afterOperator_eq_done read
    rw [Reading.andThen_eq_done_iff] at readInner
    obtain ⟨found, between, readInner, finished⟩ := readInner
    cases finished
    obtain ⟨endedRest, inner, lexemes, innerShape, innerSame, rfl⟩ :=
      sound.atom endedBehind readInner
    refine ⟨endedRest, .prefixed _ op isOperator inner, sign :: lexemes, ?_, ?_, rfl⟩
    · rw [shape, innerShape, List.cons_append]
    · rw [List.map_cons, innerSame, token, Derivation.tokens]

theorem Sound.atom_succ {steps : Nat} (sound : Sound steps) {e : Expression}
    {tokens rest : List Lexeme} (ended : Ended tokens)
    (read : readAtom (steps + 1) tokens = .done e rest) : Derived .part e tokens rest := by
  cases front : peek tokens with
  | argument =>
    rw [readAtom, front] at read
    cases read
    obtain ⟨first, shape, token, endedBehind⟩ := ended.advance (by simp [front])
    refine ⟨endedBehind, .argument, [first], shape, ?_, rfl⟩
    rw [List.map_singleton, token, front, Derivation.tokens]
  | number value =>
    rw [readAtom, front] at read
    cases read
    obtain ⟨first, shape, token, endedBehind⟩ := ended.advance (by simp [front])
    refine ⟨endedBehind, .number value, [first], shape, ?_, rfl⟩
    rw [List.map_singleton, token, front, Derivation.tokens]
  | leftParen =>
    obtain ⟨opening, shape, token, endedBehind⟩ := ended.advance (by simp [front])
    cases filled : closes (peek (advance tokens)) with
    | true =>
      rw [readAtom] at read
      simp [front, filled] at read
    | false =>
      rw [readAtom_of_leftParen front filled, Reading.andThen_eq_done_iff] at read
      obtain ⟨found, between, readInner, finished⟩ := read
      obtain ⟨endedBetween, inner, lexemes, innerShape, innerSame, rfl⟩ :=
        sound.layer endedBehind readInner
      split at finished
      · next closed =>
        cases finished
        have closing : peek between = .rightParen := by
          cases atClosing : peek between with
          | rightParen => rfl
          | _ =>
            rw [atClosing] at closed
            cases closed
        obtain ⟨last, lastShape, lastToken, endedRest⟩ :=
          endedBetween.advance (by simp [closing])
        refine ⟨endedRest, .parenthesized inner, opening :: (lexemes ++ [last]), ?_, ?_, rfl⟩
        · rw [shape, innerShape, List.cons_append, List.append_assoc, List.singleton_append,
            ← lastShape]
        · rw [List.map_cons, List.map_append, List.map_singleton, token, front, innerSame,
            lastToken, closing, Derivation.tokens]
      · cases finished
  | prefixWord word =>
    have isOperator : (peek tokens).prefixOperator? = some word := by rw [front]; rfl
    rw [readAtom_prefixed isOperator] at read
    exact sound.part ended read
  | minus =>
    have isOperator : (peek tokens).prefixOperator? = some .neg := by rw [front]; rfl
    rw [readAtom_prefixed isOperator] at read
    exact sound.part ended read
  | _ =>
    rw [readAtom, front] at read
    cases read

theorem sound (steps : Nat) : Sound steps := by
  induction steps with
  | zero => exact ⟨nofun, nofun, nofun, nofun, nofun⟩
  | succ steps inductionHypothesis =>
    exact ⟨inductionHypothesis.layer_succ, inductionHypothesis.operand_succ,
      inductionHypothesis.chain_succ, inductionHypothesis.part_succ,
      inductionHypothesis.atom_succ⟩

theorem isEnd_iff {token : Token} : isEnd token = true ↔ token = .endOfInput := by
  cases token <;> simp [isEnd]

/-- What is left when the end of the input is in front is the end of the input alone. -/
theorem Ended.eq_singleton {rest : List Lexeme} (ended : Ended rest)
    (atEnd : peek rest = .endOfInput) : ∃ last, rest = [last] := by
  obtain ⟨before, last, rfl, -, others⟩ := ended
  cases before with
  | nil => exact ⟨last, rfl⟩
  | cons first more => exact absurd atEnd (others first List.mem_cons_self)

theorem parse_eq_ok {tokens : List Lexeme} {e : Expression} :
    parse tokens = .ok e ↔
      ∃ rest, readLayer (enoughSteps tokens) .sum tokens = .done e rest ∧
        peek rest = .endOfInput := by
  have within : parse tokens = .ok e ↔
      ∃ rest, parseWithin (enoughSteps tokens) tokens = .done e rest := by
    rw [parse]
    cases parseWithin (enoughSteps tokens) tokens <;> simp
  rw [within]
  simp only [parseWithin, Reading.andThen_eq_done_iff]
  constructor
  · rintro ⟨rest, found, between, read, finished⟩
    split at finished
    · next atEnd =>
      cases finished
      exact ⟨_, read, isEnd_iff.mp atEnd⟩
    · cases finished
  · rintro ⟨rest, read, atEnd⟩
    exact ⟨rest, e, rest, read, if_pos (isEnd_iff.mpr atEnd)⟩

/-- On tokens that end with the end of the input, the parser finds an expression exactly if the
tokens in front of the end have a derivation with this meaning. -/
theorem parse_eq_ok_iff {lexemes : List Lexeme} {last : Lexeme} (isEnd : last.token = .endOfInput)
    (others : ∀ lexeme ∈ lexemes, lexeme.token ≠ .endOfInput) {e : Expression} :
    parse (lexemes ++ [last]) = .ok e ↔
      ∃ d : Derivation (.layer .sum), d.tokens = lexemes.map Lexeme.token ∧ d.meaning = e := by
  rw [parse_eq_ok]
  constructor
  · rintro ⟨rest, read, atEnd⟩
    have ended : Ended (lexemes ++ [last]) := ⟨lexemes, last, rfl, isEnd, others⟩
    obtain ⟨endedRest, d, front, shape, same, rfl⟩ := (sound _).layer ended read
    obtain ⟨last', rfl⟩ := endedRest.eq_singleton atEnd
    obtain ⟨rfl, -⟩ := List.append_inj' shape rfl
    exact ⟨d, same.symm, rfl⟩
  · rintro ⟨d, same, rfl⟩
    have stops : Stops (.layer .sum) [last.token] := by
      intro token first
      cases first
      rw [isEnd]
      rfl
    refine ⟨[last], found d same.symm (by simp) stops ?_, isEnd⟩
    simp only [surplus, enoughSteps, List.length_append, List.length_singleton]
    omega

end Parser
end DomainColoring
