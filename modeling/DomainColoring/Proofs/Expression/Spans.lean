import DomainColoring.Proofs.Expression.Items

/-!
# What the spans of tokens cover

The tokens of a text account for all of it: each is found again in the part of the text that its
span covers, and outside of the spans there is white space only. Which spans these are is not
said here; where a word ends is up to its characters.
-/

namespace DomainColoring.Lexer

variable {place : Nat} {text front behind : List Char} {lexemes : List Lexeme}

theorem word?_ne_endOfInput (word : List Char) : word? word ≠ some .endOfInput := by
  unfold word?
  split
  · simp
  · cases PrefixOperator.ofWord? word <;> cases Literal.read? word <;> simp

/-- No item of a text is the end of the input. -/
theorem ne_endOfInput_of_classify {first : Char} {more : List Char} {token : Token}
    (isToken : classify first more = .ok (some token)) : token ≠ .endOfInput := by
  rintro rfl
  rw [classify] at isToken
  split at isToken
  · cases isToken
  · split at isToken
    · next sign =>
      cases isToken
      unfold sign? at sign
      split at sign <;> cases sign
    · split at isToken
      · repeat' split at isToken
        all_goals cases isToken
      · split at isToken
        · cases isToken
        · split at isToken
          · next isWord =>
            cases isToken
            exact word?_ne_endOfInput _ isWord
          · cases isToken

/-- Each lexeme of a front is an item of it, and would be one if nothing stood behind it. -/
theorem Takes.item (takes : Takes place front behind lexemes) {lexeme : Lexeme}
    (member : lexeme ∈ lexemes) :
    ∃ before first more after, front = before ++ first :: more ++ after ∧
      lexeme.span = ⟨place + Text.byteLength before,
        place + Text.byteLength (before ++ first :: more)⟩ ∧
      classify first more = .ok (some lexeme.token) ∧ extent first more = (more, []) := by
  induction takes with
  | nothing => cases member
  | @blank place c front behind lexemes isBlank others inductionHypothesis =>
    obtain ⟨before, first, more, after, rfl, span, isToken, reaches⟩ := inductionHypothesis member
    refine ⟨c :: before, first, more, after, rfl, ?_, isToken, reaches⟩
    rw [span, List.cons_append, Text.byteLength_cons, Text.byteLength_cons, Nat.add_assoc,
      Nat.add_assoc]
  | @token place first more front behind token lexemes reaches isToken others
      inductionHypothesis =>
    rcases List.mem_cons.mp member with rfl | later
    · have alone := extent_congr reaches isToken (mayFollow_nil _)
      rw [List.append_nil] at alone
      exact ⟨[], first, more, front, rfl, rfl, isToken, alone⟩
    · obtain ⟨before, first', more', after, rfl, span, isToken', reaches'⟩ :=
        inductionHypothesis later
      refine ⟨first :: more ++ before, first', more', after, by simp, ?_, isToken', reaches'⟩
      rw [span, List.append_assoc]
      simp only [Text.byteLength_append, Nat.add_assoc]

/-- The lexemes of a front stand in it, one behind the other. -/
theorem Takes.ordered (takes : Takes place front behind lexemes) :
    lexemes.Pairwise (fun l m => l.span.stop ≤ m.span.start) ∧
      ∀ l ∈ lexemes, place ≤ l.span.start ∧ l.span.stop ≤ place + Text.byteLength front := by
  have inside : ∀ {place front behind lexemes}, Takes place front behind lexemes → ∀ l ∈ lexemes,
      place ≤ l.span.start ∧ l.span.stop ≤ place + Text.byteLength front := by
    intro place front behind lexemes takes l member
    obtain ⟨before, first, more, after, rfl, span, -, -⟩ := takes.item member
    rw [span]
    simp only [Text.byteLength_append]
    omega
  refine ⟨?_, inside takes⟩
  induction takes with
  | nothing => exact .nil
  | blank isBlank others inductionHypothesis => exact inductionHypothesis
  | token reaches isToken others inductionHypothesis =>
    exact .cons (fun l member => (inside others l member).1) inductionHypothesis

/-- A character of a front is white space or within the span of a lexeme. -/
theorem Takes.exists_covering (takes : Takes place front behind lexemes) {before after : List Char}
    {c : Char} (shape : front = before ++ c :: after) (visible : Text.isBlank c = false) :
    ∃ l ∈ lexemes, l.span.start ≤ place + Text.byteLength before ∧
      place + Text.byteLength (before ++ [c]) ≤ l.span.stop := by
  induction takes generalizing before with
  | nothing => simp at shape
  | @blank place d front behind lexemes isBlank others inductionHypothesis =>
    cases before with
    | nil =>
      obtain rfl : d = c := (List.cons.inj shape).1
      rw [isBlank] at visible
      cases visible
    | cons d' rest =>
      obtain ⟨rfl, behindBlank⟩ := List.cons.inj shape
      obtain ⟨l, member, start, stop⟩ := inductionHypothesis behindBlank
      refine ⟨l, member, ?_, ?_⟩
      · rwa [Text.byteLength_cons, ← Nat.add_assoc]
      · rwa [List.cons_append, Text.byteLength_cons, ← Nat.add_assoc]
  | @token place first more front behind token lexemes reaches isToken others
      inductionHypothesis =>
    have later : ∀ rest, before = first :: more ++ rest → front = rest ++ c :: after →
        ∃ l ∈ lexemes, l.span.start ≤ place + Text.byteLength before ∧
          place + Text.byteLength (before ++ [c]) ≤ l.span.stop := by
      rintro rest rfl shape
      obtain ⟨l, member, start, stop⟩ := inductionHypothesis shape
      refine ⟨l, member, ?_, ?_⟩
      · rwa [Text.byteLength_append, ← Nat.add_assoc]
      · rwa [List.append_assoc, Text.byteLength_append, ← Nat.add_assoc]
    rcases List.append_eq_append_iff.mp shape with ⟨rest, split, behindItem⟩ | ⟨rest, item, split⟩
    · obtain ⟨l, member, bounds⟩ := later rest split behindItem
      exact ⟨l, List.mem_cons_of_mem _ member, bounds⟩
    · cases rest with
      | nil =>
        obtain ⟨l, member, bounds⟩ := later [] (by simpa using item.symm) split.symm
        exact ⟨l, List.mem_cons_of_mem _ member, bounds⟩
      | cons d others =>
        obtain ⟨rfl, -⟩ := List.cons.inj split
        refine ⟨_, List.mem_cons_self, Nat.le_add_right _ _, ?_⟩
        rw [item]
        simp only [Text.byteLength_append, Text.byteLength_cons, Text.byteLength_nil]
        omega

/-- The lexemes of a text are parts of it. -/
theorem Takes.covers (takes : Takes 0 text behind lexemes) {lexeme : Lexeme}
    (member : lexeme ∈ lexemes) :
    ∃ first more, lexeme.span.Covers text (first :: more) ∧
      classify first more = .ok (some lexeme.token) ∧ extent first more = (more, []) := by
  obtain ⟨before, first, more, after, shape, span, isToken, reaches⟩ := takes.item member
  rw [Nat.zero_add, Nat.zero_add] at span
  exact ⟨first, more, ⟨before, after, shape, by rw [span], by rw [span]⟩, isToken, reaches⟩

/-- The end of the input stands behind all lexemes of a text. -/
theorem Takes.ordered_to_end (takes : Takes 0 text behind lexemes) :
    List.Pairwise (fun l m : Lexeme => l.span.stop ≤ m.span.start)
      (lexemes ++ [⟨.endOfInput, Text.byteLength text, Text.byteLength text⟩]) := by
  obtain ⟨ordered, inside⟩ := takes.ordered
  rw [List.pairwise_append]
  refine ⟨ordered, List.pairwise_singleton _ _, fun l member last atEnd => ?_⟩
  rw [List.mem_singleton.mp atEnd, ← Nat.zero_add (Text.byteLength text)]
  exact (inside l member).2

theorem Takes.ne_endOfInput (takes : Takes 0 text behind lexemes) {lexeme : Lexeme}
    (member : lexeme ∈ lexemes) : lexeme.token ≠ .endOfInput := by
  obtain ⟨first, more, -, isToken, -⟩ := takes.covers member
  exact ne_endOfInput_of_classify isToken

/-- The item that a token was read from is the whole of a text that it is the token of. -/
theorem tokens_item {first : Char} {more : List Char} {token : Token}
    (reaches : extent first more = (more, [])) (isToken : classify first more = .ok (some token)) :
    tokens (first :: more) = .ok [⟨token, 0, Text.byteLength (first :: more)⟩,
      ⟨.endOfInput, Text.byteLength (first :: more), Text.byteLength (first :: more)⟩] := by
  have takes : Takes 0 (first :: more ++ []) [] [⟨token, 0, 0 + Text.byteLength (first :: more)⟩] :=
    .token (by simpa using reaches) isToken .nothing
  rw [List.append_nil, Nat.zero_add] at takes
  exact takes.tokens_eq

/-- The tokens of a text account for all of it. They stand one behind the other, the last of them
and no other is the end of the input, and it stands at the end of the text. Every other one covers
a part of the text that is not empty and of which it is the only token; what no token covers is
white space. -/
theorem tokens_account_for_text {read : List Lexeme} (ok : tokens text = .ok read) :
    ∃ lexemes : List Lexeme,
      read = lexemes ++ [⟨.endOfInput, Text.byteLength text, Text.byteLength text⟩] ∧
      (∀ l ∈ lexemes, l.token ≠ .endOfInput) ∧
      read.Pairwise (fun l m => l.span.stop ≤ m.span.start) ∧
      (∀ l ∈ lexemes, ∃ part, part ≠ [] ∧ l.span.Covers text part ∧
        tokens part = .ok [⟨l.token, 0, Text.byteLength part⟩,
          ⟨.endOfInput, Text.byteLength part, Text.byteLength part⟩]) ∧
      ∀ before c after, text = before ++ c :: after → Text.isBlank c = false →
        ∃ l ∈ lexemes, l.span.start ≤ Text.byteLength before ∧
          Text.byteLength (before ++ [c]) ≤ l.span.stop := by
  obtain ⟨lexemes, takes, rfl⟩ := exists_takes_of_ok ok
  refine ⟨lexemes, rfl, fun l => takes.ne_endOfInput, takes.ordered_to_end, ?_, ?_⟩
  · intro l member
    obtain ⟨first, more, covers, isToken, reaches⟩ := takes.covers member
    exact ⟨first :: more, List.cons_ne_nil _ _, covers, tokens_item reaches isToken⟩
  · intro before c after shape visible
    obtain ⟨l, member, start, stop⟩ := takes.exists_covering shape visible
    rw [Nat.zero_add] at start stop
    exact ⟨l, member, start, stop⟩

/-- The blank in front of the parenthesis takes three bytes. -/
theorem tokens_account_for_wide_blank :
    tokens ['l', 'n', '\u3000', '(', 'z', ')'] = .ok [⟨.prefixWord .ln, 0, 2⟩,
        ⟨.leftParen, 5, 6⟩, ⟨.argument, 6, 7⟩, ⟨.rightParen, 7, 8⟩, ⟨.endOfInput, 8, 8⟩] ∧
      ∃ part, part ≠ [] ∧ Span.Covers ⟨5, 6⟩ ['l', 'n', '\u3000', '(', 'z', ')'] part ∧
        tokens part = .ok [⟨.leftParen, 0, Text.byteLength part⟩,
          ⟨.endOfInput, Text.byteLength part, Text.byteLength part⟩] := by
  have takes : Takes 0 ['l', 'n', '\u3000', '(', 'z', ')'] [] [⟨.prefixWord .ln, 0, 2⟩,
      ⟨.leftParen, 5, 6⟩, ⟨.argument, 6, 7⟩, ⟨.rightParen, 7, 8⟩] :=
    @Takes.token 0 'l' ['n'] _ _ _ _ rfl rfl (.blank rfl (@Takes.token 5 '(' [] _ _ _ _ rfl rfl
      (@Takes.token 6 'z' [] _ _ _ _ rfl rfl (@Takes.token 7 ')' [] _ _ _ _ rfl rfl .nothing))))
  have ok := takes.tokens_eq
  obtain ⟨lexemes, read, -, -, covered, -⟩ := tokens_account_for_text ok
  obtain ⟨rfl, -⟩ := List.append_inj' read rfl
  exact ⟨ok, covered ⟨.leftParen, 5, 6⟩ (by simp)⟩

end DomainColoring.Lexer
