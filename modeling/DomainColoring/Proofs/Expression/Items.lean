import DomainColoring.Proofs.Expression.Lexer
import DomainColoring.Proofs.Text.Span

/-!
# Items of a text

Reading a text takes one item after another off its front. Where an item ends depends on what
stands behind it only through the next character, so a front that was read is read in the same
way on its own, and each of its tokens is found again in the text of its own span.
-/

namespace DomainColoring.Lexer

theorem splitWord_eq (backwards text : List Char) :
    (splitWord backwards text).1 ++ (splitWord backwards text).2 = text := by
  induction text generalizing backwards with
  | nil => rfl
  | cons c rest inductionHypothesis =>
    rw [splitWord]
    split
    · rfl
    · exact congrArg (c :: ·) (inductionHypothesis (c :: backwards))

theorem splitPair_eq (text : List Char) : (splitPair text).1 ++ (splitPair text).2 = text := by
  induction text with
  | nil => rfl
  | cons c rest inductionHypothesis =>
    rw [splitPair]
    split
    · rfl
    · exact congrArg (c :: ·) inductionHypothesis

/-- Nothing is lost between an item and what stands behind it. -/
theorem extent_eq (first : Char) (rest : List Char) :
    (extent first rest).1 ++ (extent first rest).2 = rest := by
  rw [extent]
  split
  · rfl
  · split
    · exact splitPair_eq rest
    · exact splitWord_eq [first] rest

/-- What stands behind an item may be replaced: by nothing, or by a text that begins with the same
character or with white space. -/
def MayFollow (after other : List Char) : Prop :=
  ∀ c ∈ other.head?, c ∈ after.head? ∨ Text.isBlank c = true

theorem mayFollow_nil (after : List Char) : MayFollow after [] := nofun

/-- Behind a front with characters in it, anything may stand. -/
theorem MayFollow.append (front : List Char) {after other : List Char}
    (mayFollow : MayFollow after other) : MayFollow (front ++ after) (front ++ other) := by
  cases front with
  | nil => exact mayFollow
  | cons c rest => exact fun _ first => .inl first

theorem endsWord_of_isBlank (backwards : List Char) {c : Char} (blank : Text.isBlank c = true) :
    endsWord backwards c = true := by
  simp [endsWord, blank]

theorem splitWord_congr {more after other : List Char} (mayFollow : MayFollow after other)
    {backwards : List Char} (reaches : splitWord backwards (more ++ after) = (more, after)) :
    splitWord backwards (more ++ other) = (more, other) := by
  induction more generalizing backwards with
  | nil =>
    cases other with
    | nil => rfl
    | cons c rest =>
      have ends : endsWord backwards c = true := by
        rcases mayFollow c rfl with same | blank
        · cases after with
          | nil => cases same
          | cons d others =>
            cases same
            rw [List.nil_append, splitWord] at reaches
            split at reaches
            · next ends => exact ends
            · cases reaches
        · exact endsWord_of_isBlank backwards blank
      rw [List.nil_append, splitWord, if_pos ends]
  | cons c rest inductionHypothesis =>
    rw [List.cons_append, splitWord] at reaches ⊢
    split at reaches
    · cases reaches
    · next goesOn =>
      simp only [Prod.mk.injEq, List.cons.injEq, true_and] at reaches
      rw [if_neg goesOn, inductionHypothesis (Prod.ext reaches.1 reaches.2)]

/-- A pair that ends with a brace ends with the first one. -/
theorem exists_inner {more text after : List Char} (reaches : splitPair text = (more, after))
    (closed : more.getLast? = some '}') : ∃ inner, more = inner ++ ['}'] ∧ '}' ∉ inner := by
  induction text generalizing more with
  | nil =>
    cases reaches
    cases closed
  | cons c rest inductionHypothesis =>
    rw [splitPair] at reaches
    split at reaches
    · next brace =>
      cases reaches
      exact ⟨[], by rw [brace]; rfl, List.not_mem_nil⟩
    · next noBrace =>
      cases reaches
      have someMore : (splitPair rest).1.getLast? = some '}' := by
        cases shape : (splitPair rest).1 with
        | nil =>
          rw [shape] at closed
          exact absurd (Option.some.inj closed) noBrace
        | cons d others =>
          rw [shape, List.getLast?_cons_cons] at closed
          exact closed
      obtain ⟨inner, shape, open_⟩ := inductionHypothesis rfl someMore
      refine ⟨c :: inner, by rw [shape]; rfl, ?_⟩
      rintro (_ | ⟨_, member⟩)
      · exact noBrace rfl
      · exact open_ member

/-- An item is white space exactly if its first character is. -/
theorem isBlank_of_classify {first : Char} {more : List Char}
    (nothing : classify first more = .ok none) : Text.isBlank first = true := by
  rw [classify] at nothing
  split at nothing
  · assumption
  · repeat' split at nothing
    all_goals cases nothing

/-- A pair is a token only if it is closed. -/
theorem closed_of_classify {more : List Char} {token : Token}
    (isToken : classify '{' more = .ok (some token)) : more.getLast? = some '}' := by
  by_contra unclosed
  have refused : classify '{' more = .error .unterminatedPair := by
    have visible : Text.isBlank '{' = false := by decide
    have noSign : sign? '{' = none := rfl
    rw [classify, visible, noSign]
    simp only [Bool.false_eq_true, if_false, if_true, if_neg unclosed]
  rw [refused] at isToken
  cases isToken

theorem extent_of_isBlank {first : Char} (blank : Text.isBlank first = true) (rest : List Char) :
    extent first rest = ([], rest) := by
  simp [extent, blank]

/-- A token takes the same characters whichever of the texts that may follow it stands behind
it. -/
theorem extent_congr {first : Char} {more after other : List Char} {token : Token}
    (reaches : extent first (more ++ after) = (more, after))
    (isToken : classify first more = .ok (some token)) (mayFollow : MayFollow after other) :
    extent first (more ++ other) = (more, other) := by
  rw [extent] at reaches ⊢
  split at reaches
  · next alone =>
    cases reaches
    rw [if_pos alone]
    rfl
  · next joined =>
    rw [if_neg joined]
    simp only [Bool.or_eq_true, decide_eq_true_eq, not_or, Bool.not_eq_true,
      Option.isSome_eq_false_iff, Option.isNone_iff_eq_none] at joined
    split at reaches
    · next opening =>
      rw [opening] at isToken
      obtain ⟨inner, rfl, open_⟩ := exists_inner reaches (closed_of_classify isToken)
      rw [if_pos opening, List.append_assoc]
      exact splitPair_append open_ other
    · next noPair =>
      rw [if_neg noPair]
      exact splitWord_congr mayFollow reaches

/-- From a place on, the front of a text is read as lexemes, and the rest stands behind it. This
is how far reading has come when it is at the end of the front. -/
inductive Takes : Nat → List Char → List Char → List Lexeme → Prop where
  | nothing {place behind} : Takes place [] behind []
  | blank {place c front behind lexemes} (isBlank : Text.isBlank c = true)
      (others : Takes (place + c.utf8Size) front behind lexemes) :
      Takes place (c :: front) behind lexemes
  | token {place first more front behind token lexemes}
      (reaches : extent first (more ++ (front ++ behind)) = (more, front ++ behind))
      (isToken : classify first more = .ok (some token))
      (others : Takes (place + Text.byteLength (first :: more)) front behind lexemes) :
      Takes place (first :: more ++ front) behind
        (⟨token, place, place + Text.byteLength (first :: more)⟩ :: lexemes)

namespace Takes

variable {place : Nat} {front behind other : List Char} {lexemes : List Lexeme}

/-- What a front is read as depends on what stands behind it only as far as that may follow. -/
theorem congr (takes : Takes place front behind lexemes) (mayFollow : MayFollow behind other) :
    Takes place front other lexemes := by
  induction takes with
  | nothing => exact .nothing
  | blank isBlank others inductionHypothesis => exact .blank isBlank (inductionHypothesis mayFollow)
  | @token place first more front behind token lexemes reaches isToken others inductionHypothesis =>
    exact .token (extent_congr reaches isToken (mayFollow.append front)) isToken
      (inductionHypothesis mayFollow)

/-- Reading goes on behind the front with the lexemes kept. -/
theorem tokensFrom_eq (takes : Takes place front behind lexemes) :
    tokensFrom place (front ++ behind) =
      (tokensFrom (place + Text.byteLength front) behind).map (lexemes ++ ·) := by
  induction takes with
  | @nothing place behind =>
    cases found : tokensFrom place behind <;> simp [found, Except.map]
  | @blank place c front behind lexemes isBlank others inductionHypothesis =>
    have isNothing : classify c [] = .ok none := by simp [classify, isBlank]
    rw [List.cons_append, tokensFrom]
    simp only [extent_of_isBlank isBlank, isNothing, Text.byteLength_cons, Text.byteLength_nil,
      Nat.add_zero]
    rw [inductionHypothesis, Nat.add_assoc]
  | @token place first more front behind token lexemes reaches isToken others
      inductionHypothesis =>
    rw [List.append_assoc, List.cons_append, tokensFrom]
    simp only [reaches, isToken]
    rw [inductionHypothesis, Text.byteLength_append, Nat.add_assoc]
    cases tokensFrom _ behind <;> rfl

/-- A front at the end of a text is followed by the end of the input. -/
theorem tokens_eq (takes : Takes 0 front [] lexemes) :
    tokens front =
      .ok (lexemes ++ [⟨.endOfInput, Text.byteLength front, Text.byteLength front⟩]) := by
  have read := takes.tokensFrom_eq
  rw [List.append_nil, Nat.zero_add, tokensFrom] at read
  exact read

end Takes

/-- The item in front of a text is refused. -/
def Refused (text : List Char) (cause : SyntaxError.Cause) : Prop :=
  ∃ first rest, text = first :: rest ∧ classify first (extent first rest).1 = .error cause

/-- Reading a text comes to its end or to an item that is refused. -/
theorem exists_takes (place : Nat) (text : List Char) :
    ∃ front behind lexemes, text = front ++ behind ∧ Takes place front behind lexemes ∧
      (behind = [] ∨ ∃ cause, Refused behind cause) := by
  fun_induction tokensFrom place text with
  | case1 place => exact ⟨[], [], [], rfl, .nothing, .inl rfl⟩
  | case2 place first rest more span cause refused =>
    exact ⟨[], first :: rest, [], rfl, .nothing, .inr ⟨cause, first, rest, rfl, refused⟩⟩
  | case3 place first rest more after span nothing inductionHypothesis =>
    have blank := isBlank_of_classify nothing
    have reaches := extent_of_isBlank blank rest
    obtain ⟨front, behind, lexemes, shape, takes, ends⟩ := inductionHypothesis
    have behindBlank : rest = front ++ behind := by
      rw [← shape]
      exact (congrArg Prod.snd reaches).symm
    have size : span.stop = place + first.utf8Size := by
      simp only [span, more, reaches, Text.byteLength_cons, Text.byteLength_nil, Nat.add_zero]
    rw [size] at takes
    exact ⟨first :: front, behind, lexemes, congrArg (first :: ·) behindBlank, .blank blank takes,
      ends⟩
  | case4 place first rest more after span token isToken inductionHypothesis =>
    obtain ⟨front, behind, lexemes, shape, takes, ends⟩ := inductionHypothesis
    have whole : rest = more ++ (front ++ behind) := by
      rw [← shape]
      exact (extent_eq first rest).symm
    have reaches : extent first (more ++ (front ++ behind)) = (more, front ++ behind) := by
      rw [← whole, ← shape]
    exact ⟨first :: more ++ front, behind, _, by simp [whole], .token reaches isToken takes, ends⟩

/-- A text splits into tokens only if reading comes to its end. -/
theorem exists_takes_of_ok {text : List Char} {read : List Lexeme} (ok : tokens text = .ok read) :
    ∃ lexemes, Takes 0 text [] lexemes ∧
      read = lexemes ++ [⟨.endOfInput, Text.byteLength text, Text.byteLength text⟩] := by
  obtain ⟨front, behind, lexemes, rfl, takes, rfl | ⟨cause, first, rest, rfl, refused⟩⟩ :=
    exists_takes 0 text
  · rw [List.append_nil] at ok ⊢
    rw [takes.tokens_eq] at ok
    exact ⟨lexemes, takes, (Except.ok.inj ok).symm⟩
  · rw [tokens, takes.tokensFrom_eq, tokensFrom] at ok
    simp only [refused] at ok
    cases ok

/-- An error in splitting a text stands where reading comes to the item that is refused, and spans
this item. -/
theorem exists_takes_of_error {text : List Char} {error : SyntaxError}
    (failed : tokens text = .error error) :
    ∃ front first rest lexemes, text = front ++ first :: rest ∧
      Takes 0 front (first :: rest) lexemes ∧
      classify first (extent first rest).1 = .error error.cause ∧
      error.span = ⟨Text.byteLength front,
        Text.byteLength (front ++ first :: (extent first rest).1)⟩ := by
  obtain ⟨front, behind, lexemes, rfl, takes, rfl | ⟨cause, first, rest, rfl, refused⟩⟩ :=
    exists_takes 0 text
  · rw [List.append_nil, takes.tokens_eq] at failed
    cases failed
  · rw [tokens, takes.tokensFrom_eq, tokensFrom] at failed
    simp only [refused] at failed
    cases failed
    refine ⟨front, first, rest, lexemes, rfl, takes, refused, ?_⟩
    rw [Text.byteLength_append, Nat.zero_add]

end DomainColoring.Lexer
