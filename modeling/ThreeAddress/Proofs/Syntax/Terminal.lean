import ThreeAddress.Operator
import ThreeAddress.Token

/-!
# Terminals

The terminals of the grammar of the source language, and the terminal that a token is.

Three terminals stand for a class of lexemes: identifiers, integers and floats. Every other terminal
has exactly one lexeme, that is, a kind and a text (`Terminal.lexeme?`), and a token is that
terminal if and only if it has that lexeme (`Token.terminal?_eq_some_iff`). A token that is neither,
such as `==`, is no terminal at all.
-/

namespace ThreeAddress

/-- The binary arithmetic operators. -/
inductive Arithmetic where
  | add
  | subtract
  | mult
  | divide
deriving Repr, DecidableEq

namespace Arithmetic

/-- The operator of the quadruples that compute it. -/
def operator : Arithmetic → Operator
  | add => .add
  | subtract => .subtract
  | mult => .mult
  | divide => .divide

/-- All of them. -/
def all : List Arithmetic :=
  [add, subtract, mult, divide]

end Arithmetic

/-- The comparisons. -/
inductive Comparison where
  | eq
  | neq
  | gte
  | lte
  | gt
  | lt
deriving Repr, DecidableEq

namespace Comparison

/-- The operator of the quadruples that compute it. -/
def operator : Comparison → Operator
  | eq => .eq
  | neq => .neq
  | gte => .gte
  | lte => .lte
  | gt => .gt
  | lt => .lt

/-- All of them. -/
def all : List Comparison :=
  [eq, neq, gte, lte, gt, lt]

end Comparison

/-- The marks. -/
inductive Mark where
  | leftParen
  | rightParen
  | comma
  | point
  | dollar
deriving Repr, DecidableEq

namespace Mark

/-- How a mark is written. -/
def text : Mark → String
  | leftParen => "("
  | rightParen => ")"
  | comma => ","
  | point => "."
  | dollar => "$"

/-- All of them. -/
def all : List Mark :=
  [leftParen, rightParen, comma, point, dollar]

end Mark

/-- What is left of a token without its place. -/
abbrev Lexeme : Type := TokenKind × String

/-- The lexeme of a token. -/
def Token.lexeme (t : Token) : Lexeme :=
  (t.kind, t.text)

theorem Token.lexeme_eq {t : Token} {kind : TokenKind} (h : t.kind = kind) :
    t.lexeme = (kind, t.text) := by
  rw [lexeme, h]

/-- The terminals of the grammar. -/
inductive Terminal where
  | word (k : Keyword)
  | mark (m : Mark)
  | operator (op : Arithmetic)
  | comparison (c : Comparison)
  | becomes
  | colon
  | semicolon
  | identifier
  | integer
  | float
deriving Repr, DecidableEq

namespace Terminal

/-- The lexeme of a terminal that has only one. -/
def lexeme? : Terminal → Option Lexeme
  | word k => some (.keyword, k.text)
  | mark m => some (.symbol, m.text)
  | operator op => some (.operator, op.operator.symbol)
  | comparison c => some (.relational, c.operator.symbol)
  | becomes => some (.attributor, ":=")
  | colon => some (.typeDeclaration, ":")
  | semicolon => some (.semicolon, ";")
  | identifier | integer | float => none

/-- The terminals that have only one lexeme. -/
def fixed : List Terminal :=
  Keyword.all.map word ++ Mark.all.map mark ++ Arithmetic.all.map operator
    ++ Comparison.all.map comparison ++ [becomes, colon, semicolon]

/-- All terminals. -/
def all : List Terminal :=
  fixed ++ [identifier, integer, float]

theorem mem_all (a : Terminal) : a ∈ all := by
  cases a with
  | word k => cases k <;> decide
  | mark m => cases m <;> decide
  | operator op => cases op <;> decide
  | comparison c => cases c <;> decide
  | becomes | colon | semicolon | identifier | integer | float => decide

theorem mem_fixed {a : Terminal} {l : Lexeme} (h : a.lexeme? = some l) : a ∈ fixed := by
  rcases List.mem_append.mp (mem_all a) with hfixed | hclass
  · exact hfixed
  · have hnone : ∀ b ∈ [identifier, integer, float], b.lexeme? = none := by decide
    rw [hnone a hclass] at h
    cases h

/-- No two terminals have the same lexeme. -/
theorem lexeme?_inj {a b : Terminal} {l : Lexeme} (ha : a.lexeme? = some l)
    (hb : b.lexeme? = some l) : a = b := by
  have distinct : ∀ a ∈ fixed, ∀ b ∈ fixed, a.lexeme? = b.lexeme? → a = b := by decide +kernel
  exact distinct a (mem_fixed ha) b (mem_fixed hb) (ha.trans hb.symm)

end Terminal

namespace Token

/-- The terminal that a token is, if it is one. -/
def terminal? (t : Token) : Option Terminal :=
  match t.kind with
  | .identifier => some .identifier
  | .integer => some .integer
  | .float => some .float
  | _ => Terminal.fixed.find? (·.lexeme? = some t.lexeme)

theorem terminal?_eq_some_iff {t : Token} {a : Terminal} {l : Lexeme} (ha : a.lexeme? = some l) :
    t.terminal? = some a ↔ t.lexeme = l := by
  have find_iff : Terminal.fixed.find? (·.lexeme? = some t.lexeme) = some a ↔ t.lexeme = l := by
    constructor
    · intro h
      have := List.find?_some h
      rw [decide_eq_true_eq, ha] at this
      exact (Option.some.inj this).symm
    · intro h
      have hfound : (Terminal.fixed.find? (·.lexeme? = some t.lexeme)).isSome = true := by
        rw [List.find?_isSome]
        exact ⟨a, Terminal.mem_fixed ha, by rw [decide_eq_true_eq, ha, h]⟩
      obtain ⟨b, hb⟩ := Option.isSome_iff_exists.mp hfound
      have := List.find?_some hb
      rw [decide_eq_true_eq, h] at this
      rw [hb, Terminal.lexeme?_inj this ha]
  -- the kinds of the three classes are not kinds of lexemes of other terminals
  have hclass : l.1 ≠ .identifier ∧ l.1 ≠ .integer ∧ l.1 ≠ .float := by
    cases a <;> simp only [Terminal.lexeme?, Option.some.injEq, reduceCtorEq] at ha <;> subst ha <;>
      simp
  have hne : a ≠ .identifier ∧ a ≠ .integer ∧ a ≠ .float := by
    refine ⟨?_, ?_, ?_⟩ <;> rintro rfl <;> cases ha
  unfold terminal?
  split
  · rename_i hk
    exact iff_of_false (fun h => hne.1 (Option.some.inj h).symm)
      (fun h => hclass.1 (by rw [← h]; exact hk))
  · rename_i hk
    exact iff_of_false (fun h => hne.2.1 (Option.some.inj h).symm)
      (fun h => hclass.2.1 (by rw [← h]; exact hk))
  · rename_i hk
    exact iff_of_false (fun h => hne.2.2 (Option.some.inj h).symm)
      (fun h => hclass.2.2 (by rw [← h]; exact hk))
  · exact find_iff

/-- The classes of lexemes: a token is the terminal of its kind. -/
theorem terminal?_class_iff {t : Token} :
    (t.terminal? = some .identifier ↔ t.kind = .identifier) ∧
      (t.terminal? = some .integer ↔ t.kind = .integer) ∧
      (t.terminal? = some .float ↔ t.kind = .float) := by
  have hfind : ∀ a, Terminal.fixed.find? (·.lexeme? = some t.lexeme) = some a →
      a.lexeme? ≠ none := by
    intro a h
    have := List.find?_some h
    rw [decide_eq_true_eq] at this
    rw [this]
    exact Option.some_ne_none _
  unfold terminal?
  split
  · rename_i hk; simp [hk]
  · rename_i hk; simp [hk]
  · rename_i hk; simp [hk]
  · rename_i h1 h2 h3
    exact ⟨iff_of_false (fun h => hfind _ h rfl) h1, iff_of_false (fun h => hfind _ h rfl) h2,
      iff_of_false (fun h => hfind _ h rfl) h3⟩

/-! ## How a token is recognized

The checks by which tokens are told apart are checks for terminals. -/

theorem is_iff {t : Token} {a : Terminal} {kind : TokenKind} {text : String}
    (ha : a.lexeme? = some (kind, text)) : t.is kind text = true ↔ t.terminal? = some a := by
  rw [terminal?_eq_some_iff ha]
  simp [Token.is, Token.lexeme]

theorem keyword?_eq_some_iff {t : Token} {k : Keyword} :
    t.keyword? = some k ↔ t.terminal? = some (.word k) := by
  have hword : Keyword.ofText? t.text = some k ↔ t.text = k.text := by
    constructor
    · intro h
      have := List.find?_some h
      exact (of_decide_eq_true this).symm
    · intro h
      rw [h]
      cases k <;> decide +kernel
  rw [terminal?_eq_some_iff (l := (.keyword, k.text)) rfl]
  unfold keyword? lexeme
  split
  · rename_i hk; rw [hword, Prod.mk.injEq]; exact ⟨fun h => ⟨hk, h⟩, fun h => h.2⟩
  · rename_i hk; exact iff_of_false (by simp) (fun h => hk (Prod.mk.inj h).1)

theorem isKeyword_iff {t : Token} {k : Keyword} :
    t.isKeyword k = true ↔ t.terminal? = some (.word k) := by
  rw [← keyword?_eq_some_iff]
  simp [isKeyword]

/-- The operator of a text among some whose texts differ. -/
theorem find?_symbol_eq_some_iff {ops : List Operator} {text : String} {o : Operator}
    (distinct : ∀ a ∈ ops, ∀ b ∈ ops, a.symbol = b.symbol → a = b) :
    ops.find? (·.symbol = text) = some o ↔ o ∈ ops ∧ o.symbol = text := by
  constructor
  · intro h
    have hsymbol := List.find?_some h
    exact ⟨List.mem_of_find?_eq_some h, of_decide_eq_true hsymbol⟩
  · rintro ⟨hmem, rfl⟩
    have hfound : (ops.find? (·.symbol = o.symbol)).isSome = true := by
      rw [List.find?_isSome]
      exact ⟨o, hmem, decide_eq_true rfl⟩
    obtain ⟨b, hb⟩ := Option.isSome_iff_exists.mp hfound
    have hsymbol := List.find?_some hb
    rw [hb, distinct b (List.mem_of_find?_eq_some hb) o hmem (of_decide_eq_true hsymbol)]

theorem ofArithmetic?_eq_some_iff {t : Token} {o : Operator} (hk : t.kind = .operator) :
    Operator.ofArithmetic? t.text = some o ↔
      ∃ op : Arithmetic, op.operator = o ∧ t.terminal? = some (.operator op) := by
  have hop : ∀ op : Arithmetic, t.terminal? = some (.operator op) ↔
      op.operator.symbol = t.text := by
    intro op
    rw [terminal?_eq_some_iff (l := (.operator, op.operator.symbol)) rfl]
    simp [lexeme, hk, eq_comm]
  simp only [hop]
  rw [Operator.ofArithmetic?, find?_symbol_eq_some_iff (by decide +kernel)]
  constructor
  · rintro ⟨hmem, htext⟩
    obtain ⟨op, -, rfl⟩ :=
      List.mem_map.mp (show o ∈ Arithmetic.all.map Arithmetic.operator from hmem)
    exact ⟨op, rfl, htext⟩
  · rintro ⟨op, rfl, htext⟩
    exact ⟨by cases op <;> decide, htext⟩

theorem ofRelational?_eq_some_iff {t : Token} {o : Operator} (hk : t.kind = .relational) :
    Operator.ofRelational? t.text = some o ↔
      ∃ c : Comparison, c.operator = o ∧ t.terminal? = some (.comparison c) := by
  have hop : ∀ c : Comparison, t.terminal? = some (.comparison c) ↔
      c.operator.symbol = t.text := by
    intro c
    rw [terminal?_eq_some_iff (l := (.relational, c.operator.symbol)) rfl]
    simp [lexeme, hk, eq_comm]
  simp only [hop]
  rw [Operator.ofRelational?, find?_symbol_eq_some_iff (by decide +kernel)]
  constructor
  · rintro ⟨hmem, htext⟩
    obtain ⟨c, -, rfl⟩ :=
      List.mem_map.mp (show o ∈ Comparison.all.map Comparison.operator from hmem)
    exact ⟨c, rfl, htext⟩
  · rintro ⟨c, rfl, htext⟩
    exact ⟨by cases c <;> decide, htext⟩

end Token

end ThreeAddress
