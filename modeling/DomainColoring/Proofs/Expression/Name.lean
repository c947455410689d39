import DomainColoring.Proofs.Expression.Spelling

/-!
# Names read again

The name of a function is itself an expression. Reading it gives back the name and, up to what
was not written of its constants, the function. The expression that the function came from is
not given back: constants are worked out, parentheses are added, and a minus sign of a constant
becomes an operator.
-/

namespace DomainColoring

open Grammar

namespace Expression

/-- A text that has the tokens of a derivation is read as its meaning. -/
theorem read_of_lexes {text : List Char} (d : Derivation (.layer .sum))
    (lexes : Lexer.Lexes text d.tokens) : read text = .ok d.meaning := by
  obtain ⟨lexemes, last, split, isEnd, same⟩ := lexes 0
  have others : ∀ lexeme ∈ lexemes, lexeme.token ≠ .endOfInput := by
    intro lexeme member ends
    apply d.endOfInput_not_mem
    rw [← same, ← ends]
    exact List.mem_map_of_mem member
  have parsed := (Parser.parse_eq_ok_iff isEnd others).mpr ⟨d, same.symm, rfl⟩
  rw [read, Lexer.tokens, split]
  exact parsed

/-- A text that spells a part is read as its meaning. -/
theorem read_of_spells {text : List Char} (d : Derivation .part)
    (spells : Lexer.Spells text d.tokens) : read text = .ok d.meaning := by
  have lexes : Lexer.Lexes (text ++ []) (d.tokens ++ []) := spells.lexes nofun Lexer.lexes_nil
  rw [List.append_nil] at lexes
  let whole : Derivation (.layer .sum) := .operands (operandOf d .sum) .stop
  have tokens : whole.tokens = d.tokens ++ [] := by simp [whole, operandOf, Derivation.tokens]
  exact read_of_lexes whole (tokens ▸ lexes)

end Expression

/-- A finite constant on its own is read as it is read in a name. -/
theorem Operand.read_write {c : ComplexNumber} (finite : c.isFinite = true) :
    Operand.read (Literal.write c) = .ok (.constant (Literal.reread c)) := by
  rw [Operand.read, Expression.read_of_spells (Grammar.constant c) (spells_constant finite)]
  exact congrArg Except.ok (operand_constant c)

/-- The name of an outline with finite constants is read as the outline with its constants
read again. -/
theorem NamedMap.read_named {t : Outline} (finite : ∀ c ∈ t.constants, c.isFinite = true) :
    NamedMap.read t.named.name.toList = .ok (t.mapConstants Literal.reread).named := by
  have denotes : Operand.read t.named.name.toList =
      .ok (.mapped (t.mapConstants Literal.reread).named) := by
    rw [name, String.toList_ofList, t.display_named, Operand.read,
      Expression.read_of_spells (part t) (spells_part finite)]
    exact congrArg Except.ok (operand_part t)
  rw [NamedMap.read, denotes]
  rfl

/-- What the name of an outline is read as is read as itself by its own name. -/
theorem NamedMap.read_named_again {t : Outline} (finite : ∀ c ∈ t.constants, c.isFinite = true) :
    NamedMap.read (t.mapConstants Literal.reread).named.name.toList =
      .ok (t.mapConstants Literal.reread).named := by
  have finiteAgain : ∀ c ∈ (t.mapConstants Literal.reread).constants, c.isFinite = true := by
    rw [t.constants_mapConstants]
    intro c member
    obtain ⟨b, inOutline, rfl⟩ := List.mem_map.mp member
    exact Literal.reread_isFinite (finite b inOutline)
  have kept : ∀ c ∈ (t.mapConstants Literal.reread).constants, Literal.reread c = c := by
    rw [t.constants_mapConstants]
    intro c member
    obtain ⟨b, inOutline, rfl⟩ := List.mem_map.mp member
    exact Literal.reread_reread (finite b inOutline)
  have readAgain := NamedMap.read_named finiteAgain
  rwa [Outline.mapConstants_eq_self kept] at readAgain

/-- A text is accepted as a function if its expression denotes one. -/
theorem NamedMap.read_eq_ok_iff {text : List Char} {f : NamedMap} :
    NamedMap.read text = .ok f ↔
      ∃ e, Expression.read text = .ok e ∧ e.operand = .mapped f := by
  rw [NamedMap.read, Operand.read]
  cases Expression.read text with
  | error error => simp [Except.map, bind, Except.bind]
  | ok e =>
    cases found : e.operand with
    | constant c => simp [Except.map, bind, Except.bind, found]
    | mapped g => simp [Except.map, bind, Except.bind, found, pure, Except.pure]

/-- The name of an accepted function is accepted if the constants that show in it are finite, and
names a function with the same name pattern, which is read as itself by this name. If each of
these constants is also read as itself, the two functions have the same values. -/
theorem NamedMap.read_name {text : List Char} {f : NamedMap}
    (accepted : NamedMap.read text = .ok f) :
    ∃ e, Expression.read text = .ok e ∧ e.operand = .mapped f ∧
      ((∀ c ∈ e.displayed, c.isFinite = true) →
        ∃ g, NamedMap.read f.name.toList = .ok g ∧ g.pattern = f.pattern ∧
          NamedMap.read g.name.toList = .ok g ∧
          ((∀ c ∈ e.displayed, Operand.read (Literal.write c) = .ok (.constant c)) →
            ∀ z, g.map z = f.map z)) := by
  obtain ⟨e, read, denotes⟩ := NamedMap.read_eq_ok_iff.mp accepted
  refine ⟨e, read, denotes, fun finite => ?_⟩
  have outline := e.operand_outline
  rw [denotes] at outline
  obtain ⟨t, rfl, shown⟩ := outline
  rw [← shown] at finite
  have written : ∀ c ∈ t.constants, Literal.write (Literal.reread c) = Literal.write c :=
    fun c member => Literal.write_reread (finite c member)
  refine ⟨_, NamedMap.read_named finite, ?_, NamedMap.read_named_again finite, fun exact z => ?_⟩
  · exact Outline.pattern_congr (Outline.render_mapConstants written)
  · have kept : ∀ c ∈ t.constants, Literal.reread c = c := by
      intro c member
      have same := (Operand.read_write (finite c member)).symm.trans (exact c (shown ▸ member))
      exact Operand.constant.inj (Except.ok.inj same)
    rw [Outline.mapConstants_eq_self kept]

/-- The minus sign of a constant is an operator in the name, and the constant is read as itself. -/
theorem NamedMap.read_name_minus :
    ∃ f g, NamedMap.read ['z', '*', '-', '2'] = .ok f ∧ NamedMap.read f.name.toList = .ok g ∧
      g.pattern = f.pattern ∧ ∀ z, g.map z = f.map z := by
  let operand (inner : Derivation .part) : Derivation (.operand .product) :=
    .power (.operands (.single inner) .stop)
  let d : Derivation (.layer .sum) := .operands (.product (.operands (operand .argument)
    (.more .star .mul rfl (operand (.prefixed .minus .neg rfl (.number ⟨2.0, 0.0⟩))) .stop))) .stop
  have isNumeral : Decimal.IsNumeral ['2'] [] := ⟨by simp, by simp, by simp⟩
  have number : Literal.read? ['2'] = some ⟨2.0, 0.0⟩ :=
    Literal.read?_numeral isNumeral (by decide +kernel) (by decide +kernel)
  have two : Literal.IsBody ['2'] ⟨2.0, 0.0⟩ := .word (by simp) (by simp) number
  have lexes : Lexer.Lexes ['z', '*', '-', '2'] d.tokens :=
    Lexer.spells_argument.lexes (Lexer.boundary_cons rfl _) (Lexer.lexes_sign rfl
      (Lexer.lexes_sign rfl (two.spells.lexes nofun Lexer.lexes_nil)))
  have tree := Expression.read_of_lexes d lexes
  let c : ComplexNumber := .neg ⟨2.0, 0.0⟩
  have finite : c.isFinite = true := by decide +kernel
  have exact : Operand.read (Literal.write c) = .ok (.constant c) := by
    have re : (Literal.reread c).re = c.re := by decide +kernel
    have im : (Literal.reread c).im = c.im := by decide +kernel
    have same : Literal.reread c = c := congrArg₂ ComplexNumber.mk re im
    rw [Operand.read_write finite, same]
  obtain ⟨e, sameTree, -, stable⟩ :=
    NamedMap.read_name (NamedMap.read_eq_ok_iff.mpr ⟨_, tree, rfl⟩)
  obtain rfl := Except.ok.inj (tree.symm.trans sameTree)
  have displayed : Expression.displayed d.meaning = [c] := rfl
  rw [displayed] at stable
  obtain ⟨g, readName, pattern, -, values⟩ := stable (List.forall_mem_singleton.mpr finite)
  exact ⟨_, g, NamedMap.read_eq_ok_iff.mpr ⟨_, tree, rfl⟩, readName, pattern,
    values (List.forall_mem_singleton.mpr exact)⟩

end DomainColoring
