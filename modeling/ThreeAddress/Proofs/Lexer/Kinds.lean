import ThreeAddress.Proofs.Analysis.Steps
import ThreeAddress.Proofs.Lexer.Positions

/-!
# The kind of a token tells what may stand in it

An analysis looks at the kind of a token first and takes its text on trust. It asks which operator
the text of an operator is, and expects to be told. For most kinds this trust is justified: whatever
calls are made, the text of a token is in the vocabulary of its kind (`Token.InVocabulary`).

There is one exception. The automaton completes a relation with an equals sign whatever came first,
and so the doubled equals sign is a lexeme of the relational kind. No relation is written that way,
and `Analyzer.relation` has to refuse it (`Lexer.vocabulary_of_tokens`).
-/

namespace ThreeAddress

/-- The text is one that the language has for the kind. -/
def Token.InVocabulary (t : Token) : Prop :=
  t.kind.Spells t.text ∧ (t.kind = .relational → t.text ∈ Analyzer.relations)

theorem Operator.isSome_ofArithmetic? {text : String} (h : TokenKind.operator.Spells text) :
    (ofArithmetic? text).isSome = true := by
  simp only [TokenKind.Spells, List.mem_cons, List.not_mem_nil, or_false] at h
  rcases h with rfl | rfl | rfl | rfl <;> decide

theorem Operator.isSome_ofRelational? {text : String} (h : text ∈ Analyzer.relations) :
    (ofRelational? text).isSome = true := by
  simp only [Analyzer.relations, List.mem_cons, List.not_mem_nil, or_false] at h
  rcases h with rfl | rfl | rfl | rfl | rfl | rfl <;> decide

theorem mem_relations_of_spells {text : String} (h : TokenKind.relational.Spells text) :
    text ∈ Analyzer.relations ∨ text = "==" := by
  simp only [TokenKind.Spells, List.mem_cons, List.not_mem_nil, or_false] at h
  simp only [Analyzer.relations, List.mem_cons, List.not_mem_nil, or_false]
  tauto

theorem Token.StandsIn.inVocabulary {source : List Char} {t : Token} (h : t.StandsIn source) :
    t.InVocabulary ∨ (t.kind = .relational ∧ t.text = "==" ∧ ['=', '='] <:+: source) := by
  by_cases hkind : t.kind = .relational
  · have hspells := h.spells
    rw [hkind] at hspells
    rcases mem_relations_of_spells hspells with hmem | htext
    · exact .inl ⟨h.spells, fun _ => hmem⟩
    · obtain ⟨before, after, hsource, -⟩ := h.place
      refine .inr ⟨hkind, htext, before, after, ?_⟩
      rw [hsource, htext, List.append_assoc]
      rfl
  · exact .inl ⟨h.spells, fun hrelational => absurd hrelational hkind⟩

namespace Analyzer

/-! ## The rule for relations -/

variable {s : AnalysisState} {t : Token}

theorem consume_run_of_answer (h : s.lexer.answer .next = .token (some t)) :
    ∃ s', consume s = .ok (some t) s' ∧ s'.inside = s.inside := by
  rcases hnext : s.lexer.next with ⟨answer, l, events⟩
  obtain rfl : answer = .ok (some t) := by
    rw [Lexer.answer, hnext] at h
    cases answer with
    | error e => cases h
    | ok found =>
      cases h
      rfl
  refine ⟨{ s with
    lexer := l, log := (s.log ++ events).push (.consumed t), lastSpan := some t.span }, ?_, rfl⟩
  rw [consume, run_bind_ok (onLexer_run hnext)]
  rfl

/-- A token of the relational kind is taken for the operator of its text, and refused if there is
none. -/
theorem relation_run (h : s.lexer.answer .next = .token (some t)) (hkind : t.kind = .relational) :
    (∃ op s', relation s = .ok op s' ∧ Operator.ofRelational? t.text = some op) ∨
      (Operator.ofRelational? t.text = none ∧ ∃ s', relation s = .error
        (.rejected (.expectedOneOf relations (some t)) (some t.span) s.inside.reverse) s') := by
  obtain ⟨s', hconsume, hinside⟩ := consume_run_of_answer h
  rw [relation, run_bind_ok hconsume]
  dsimp only
  rw [if_pos hkind]
  cases hop : Operator.ofRelational? t.text with
  | some op => exact .inl ⟨op, s', rfl, rfl⟩
  | none =>
    refine .inr ⟨rfl, s', ?_⟩
    rw [← hinside]
    rfl

end Analyzer

/-! ## Any tokens -/

namespace Lexer

/-- **A token is in the vocabulary of its kind, or it is a doubled equals sign.** This is so of
every token that any calls can bring out of a source, and the doubled equals sign then stands in the
source. So there is an arithmetic operator for every operator, and a comparison for every relation
but that one. When an analysis asks for a relation, it gets the comparison, or it refuses the
doubled equals sign. -/
theorem vocabulary_of_tokens (source : String) (calls : List LexerCall) :
    (∀ t, .token (some t) ∈ (ofSource source).answers calls →
      (t.InVocabulary ∨ (t.kind = .relational ∧ t.text = "==" ∧ ['=', '='] <:+: source.toList)) ∧
      (t.kind = .operator → (Operator.ofArithmetic? t.text).isSome = true) ∧
      (t.kind = .relational → ((Operator.ofRelational? t.text).isSome = true ↔ t.text ≠ "=="))) ∧
    ∀ (s : AnalysisState) (t : Token), s.lexer = (ofSource source).afterAll calls →
      s.lexer.answer .next = .token (some t) → t.kind = .relational →
      (∃ op s', Analyzer.relation s = .ok op s' ∧ Operator.ofRelational? t.text = some op) ∨
      (t.text = "==" ∧ ∃ s', Analyzer.relation s = .error
        (.rejected (.expectedOneOf Analyzer.relations (some t)) (some t.span) s.inside.reverse)
        s') := by
  have hstart := placed_ofSource source
  constructor
  · intro t ht
    have hstands := hstart.answers ht
    refine ⟨hstands.inVocabulary, fun hkind => ?_, fun hkind => ⟨?_, fun hne => ?_⟩⟩
    · have hspells := hstands.spells
      rw [hkind] at hspells
      exact Operator.isSome_ofArithmetic? hspells
    · intro hsome htext
      rw [htext] at hsome
      exact absurd hsome (by decide)
    · have hspells := hstands.spells
      rw [hkind] at hspells
      exact Operator.isSome_ofRelational? ((mem_relations_of_spells hspells).resolve_right hne)
  · intro s t hlexer hanswer hkind
    have hmem : .token (some t) ∈ (ofSource source).answers (calls ++ [.next]) := by
      rw [answers_concat, ← hlexer, hanswer]
      simp
    have hspells := (hstart.answers hmem).spells
    rw [hkind] at hspells
    refine (Analyzer.relation_run hanswer hkind).imp_right fun ⟨hnone, hrejected⟩ => ⟨?_, hrejected⟩
    rcases mem_relations_of_spells hspells with hmem | htext
    · have hsome := Operator.isSome_ofRelational? hmem
      rw [hnone] at hsome
      cases hsome
    · exact htext

/-- The automaton makes one lexeme of two equals signs, and no comparison is written that way. -/
theorem doubled_equals_is_relational :
    (ofSource "a == b").tokens.answer =
      .ok [⟨⟨0, 1⟩, .identifier, "a"⟩, ⟨⟨2, 2⟩, .relational, "=="⟩, ⟨⟨5, 1⟩, .identifier, "b"⟩] ∧
    Operator.ofRelational? "==" = none := by
  decide +kernel

end Lexer

end ThreeAddress
