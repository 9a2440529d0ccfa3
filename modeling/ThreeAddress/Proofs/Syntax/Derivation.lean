import Mathlib.Tactic.FinCases
import ThreeAddress.Proofs.Syntax.Grammar
import ThreeAddress.Proofs.Syntax.Tree

/-!
# Parse trees are derivations

`Tree` has its own constructors, and the grammar its own list of rules. They say the same: tokens
that are the leaves of a tree are derived by the grammar from the category of the tree
(`Tree.spelled`), so what has a parse tree is a program (`Tree.derivable`).
-/

namespace ThreeAddress

open Grammar ContextFreeRule

/-- Tokens with these lexemes are derived from the form. -/
def Spelled (form : List (Item Terminal NonTerminal)) (ls : List Lexeme) : Prop :=
  ∀ ts : List Token, ts.map Token.lexeme = ls →
    ∃ word, Yields rules form word ∧ ts.map Token.terminal? = word.map some

namespace Spelled

variable {form out : List (Item Terminal NonTerminal)} {ls us : List Lexeme} {A : NonTerminal}

theorem nil : Spelled [] [] := by
  intro ts hts
  rw [List.map_eq_nil_iff.mp hts]
  exact ⟨[], .nil, rfl⟩

theorem cons {a : Terminal} {l : Lexeme}
    (ha : ∀ t : Token, t.lexeme = l → t.terminal? = some a) (h : Spelled form ls) :
    Spelled (.terminal a :: form) (l :: ls) := by
  intro ts hts
  obtain ⟨t, ts, rfl, ht, hts⟩ := List.map_eq_cons_iff.mp hts
  obtain ⟨word, hword, hmap⟩ := h ts hts
  refine ⟨a :: word, .terminal hword, ?_⟩
  rw [List.map_cons, List.map_cons, ha t ht, hmap]

theorem fixed (a : Terminal) {l : Lexeme} (ha : a.lexeme? = some l) (h : Spelled form ls) :
    Spelled (.terminal a :: form) (l :: ls) :=
  .cons (fun _ => (Token.terminal?_eq_some_iff ha).mpr) h

theorem identifier (name : String) (h : Spelled form ls) :
    Spelled (.terminal .identifier :: form) ((.identifier, name) :: ls) :=
  .cons (fun _ ht => Token.terminal?_class_iff.1.mpr (Prod.mk.inj ht).1) h

theorem subtree (hA : Spelled [.nonterminal A] us) (h : Spelled form ls) :
    Spelled (.nonterminal A :: form) (us ++ ls) := by
  intro ts hts
  obtain ⟨ts₁, ts₂, rfl, h₁, h₂⟩ := List.map_eq_append_iff.mp hts
  obtain ⟨word₁, hword₁, hmap₁⟩ := hA ts₁ h₁
  obtain ⟨word₂, hword₂, hmap₂⟩ := h ts₂ h₂
  refine ⟨word₁ ++ word₂, hword₁.append hword₂, ?_⟩
  rw [List.map_append, List.map_append, hmap₁, hmap₂]

theorem rule (mem : ⟨A, out⟩ ∈ rules) (h : Spelled out ls) : Spelled [.nonterminal A] ls := by
  intro ts hts
  obtain ⟨word, hword, hmap⟩ := h ts hts
  refine ⟨word, .rule mem ?_, hmap⟩
  rwa [List.append_nil]

end Spelled

namespace Tree

theorem spelled_varType (type : VarType) :
    Spelled [.nonterminal .varType] (varType type).lexemes := by
  cases type with
  | integer => exact .rule (by decide) (.fixed (.word .integerWord) rfl .nil)
  | real => exact .rule (by decide) (.fixed (.word .realWord) rfl .nil)

theorem spelled_literal (type : VarType) (text : String) :
    Spelled [.nonterminal .factor] (literal type text).lexemes := by
  cases type with
  | integer =>
    refine .rule (by decide) (.cons (a := .integer) (fun t ht => ?_) .nil)
    exact Token.terminal?_class_iff.2.1.mpr (Prod.mk.inj ht).1
  | real =>
    refine .rule (by decide) (.cons (a := .float) (fun t ht => ?_) .nil)
    exact Token.terminal?_class_iff.2.2.mpr (Prod.mk.inj ht).1

/-- **The leaves of a tree are derived from its category.** -/
theorem spelled {A : NonTerminal} (tree : Tree A) : Spelled [.nonterminal A] tree.lexemes := by
  induction tree with
  | program name b ih =>
    exact .rule (by decide) (.fixed (.word .programWord) rfl
      (.identifier name (.subtree ih (.fixed (.mark .point) rfl .nil))))
  | body ds cs ihd ihc =>
    exact .rule (by decide) (.subtree ihd (.fixed (.word .beginWord) rfl
      (.subtree ihc (.fixed (.word .endWord) rfl .nil))))
  | noDeclarations | endDeclarations | endVariables | endCommands | noElse | endTerms | noSign
  | endFactors => exact .rule (by decide) .nil
  | declarations first more ihf ihm => exact .rule (by decide) (.subtree ihf ihm)
  | moreDeclarations rest ih => exact .rule (by decide) (.fixed .semicolon rfl ih)
  | varDeclaration type names iht ihn =>
    exact .rule (by decide) (.subtree iht (.fixed .colon rfl ihn))
  | varType type => exact spelled_varType type
  | variableNames name more ih => exact .rule (by decide) (.identifier name ih)
  | moreVariables rest ih => exact .rule (by decide) (.fixed (.mark .comma) rfl ih)
  | commands first more ihf ihm => exact .rule (by decide) (.subtree ihf ihm)
  | separated rest ih => exact .rule (by decide) (.fixed .semicolon rfl ih)
  | juxtaposed rest ih => exact .rule (by decide) ih
  | read name =>
    exact .rule (by decide) (.fixed (.word .readWord) rfl (.fixed (.mark .leftParen) rfl
      (.identifier name (.fixed (.mark .rightParen) rfl .nil))))
  | write name =>
    exact .rule (by decide) (.fixed (.word .writeWord) rfl (.fixed (.mark .leftParen) rfl
      (.identifier name (.fixed (.mark .rightParen) rfl .nil))))
  | assign name value ih => exact .rule (by decide) (.identifier name (.fixed .becomes rfl ih))
  | conditional test onTrue onFalse iht iha ihb =>
    exact .rule (by decide) (.fixed (.word .ifWord) rfl (.subtree iht (.fixed (.word .thenWord) rfl
      (.subtree iha (.subtree ihb (.fixed (.mark .dollar) rfl .nil))))))
  | loop test body iht ihb =>
    exact .rule (by decide) (.fixed (.word .whileWord) rfl (.subtree iht
      (.fixed (.word .doWord) rfl (.subtree ihb (.fixed (.mark .dollar) rfl .nil)))))
  | elseBranch cs ih => exact .rule (by decide) (.fixed (.word .elseWord) rfl ih)
  | condition left relation right ihl ihc ihr =>
    exact .rule (by decide) (.subtree ihl (.subtree ihc ihr))
  | relation c => exact .rule (relation_mem_rules c) (.fixed (.comparison c) rfl .nil)
  | expression first more ihf ihm => exact .rule (by decide) (.subtree ihf ihm)
  | otherTerms op additive next more ihn ihm =>
    refine .rule ?_ (.fixed (.operator op) rfl (.subtree ihn ihm))
    fin_cases additive <;> decide
  | term s first more ihs ihf ihm => exact .rule (by decide) (.subtree ihs (.subtree ihf ihm))
  | sign => exact .rule (by decide) (.fixed (.operator .subtract) rfl .nil)
  | identifier name => exact .rule (by decide) (.identifier name .nil)
  | literal type text => exact spelled_literal type text
  | parenthesized inner ih =>
    exact .rule (by decide) (.fixed (.mark .leftParen) rfl
      (.subtree ih (.fixed (.mark .rightParen) rfl .nil)))
  | moreFactors op multiplicative next more ihn ihm =>
    refine .rule ?_ (.fixed (.operator op) rfl (.subtree ihn ihm))
    fin_cases multiplicative <;> decide

/-- **What has a parse tree is a program of the grammar.** -/
theorem derivable {tree : Tree .program} {ts : List Token}
    (h : ts.map Token.lexeme = tree.lexemes) : Derivable ts :=
  derivable_iff.mpr (tree.spelled ts h)

end Tree

end ThreeAddress
