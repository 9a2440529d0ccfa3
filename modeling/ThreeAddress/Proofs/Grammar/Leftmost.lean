import Mathlib.Computability.ContextFreeGrammar

/-!
# Leftmost derivations of words

A context-free grammar derives a word by rewriting any symbol of a form at any time. A parser that
reads from left to right has one order only: it always works on the first symbol of the form. This
module has that order as a relation of its own, `ContextFreeRule.Yields`, and shows that nothing is
lost by it.

> `ContextFreeRule.mem_language_iff`: a word is in the language of a grammar exactly if the initial
> symbol yields it.

`Yields` has one constructor for each thing that can happen to the first symbol of a form (there is
none, it is read, it is replaced), so an inversion of it is a statement about the next move of a
parser. That is what it is for.
-/

namespace ContextFreeRule

/-- A symbol of a form. -/
abbrev Item (T N : Type) : Type := Symbol T N

variable {T N : Type} {rules : List (ContextFreeRule T N)}

/-- `Yields rules form word`: the form derives the word, by work on its first symbol only. -/
inductive Yields (rules : List (ContextFreeRule T N)) : List (Symbol T N) → List T → Prop
  | nil : Yields rules [] []
  | terminal {a : T} {form : List (Symbol T N)} {word : List T} (rest : Yields rules form word) :
      Yields rules (.terminal a :: form) (a :: word)
  | rule {r : ContextFreeRule T N} {form : List (Symbol T N)} {word : List T} (mem : r ∈ rules)
      (rest : Yields rules (r.output ++ form) word) :
      Yields rules (.nonterminal r.input :: form) word

namespace Yields

/-- A word yields itself. -/
theorem word (w : List T) : Yields rules (w.map .terminal) w := by
  induction w with
  | nil => exact .nil
  | cons a w ih => exact .terminal ih

/-- Forms side by side yield words side by side. -/
theorem append {α β : List (Symbol T N)} {u v : List T} (hu : Yields rules α u)
    (hv : Yields rules β v) : Yields rules (α ++ β) (u ++ v) := by
  induction hu with
  | nil => exact hv
  | terminal _ ih => exact .terminal ih
  | rule mem _ ih =>
    rw [List.append_assoc] at ih
    exact .rule mem ih

/-- A rule may be undone anywhere in a form. The induction is on the derivation of the word: as long
as the place is not the first one, the derivation works left of it. -/
theorem undo {r : ContextFreeRule T N} (mem : r ∈ rules) (p q : List (Symbol T N)) {w : List T}
    (h : Yields rules (p ++ r.output ++ q) w) :
    Yields rules (p ++ [.nonterminal r.input] ++ q) w := by
  cases p with
  | nil => exact .rule mem h
  | cons x p =>
    generalize hform : x :: p ++ r.output ++ q = form at h
    induction h generalizing x p with
    | nil => simp at hform
    | terminal rest ih =>
      simp only [List.cons_append, List.cons.injEq] at hform
      obtain ⟨rfl, rfl⟩ := hform
      refine .terminal ?_
      cases p with
      | nil => exact .rule mem rest
      | cons y p => exact ih y p rfl
    | @rule r' _ _ mem' rest ih =>
      simp only [List.cons_append, List.cons.injEq] at hform
      obtain ⟨rfl, rfl⟩ := hform
      suffices Yields rules ((r'.output ++ p) ++ [.nonterminal r.input] ++ q) _ by
        rw [List.append_assoc, List.append_assoc, ← List.append_assoc p] at this
        exact .rule mem' this
      cases hp : r'.output ++ p with
      | nil =>
        -- the rule and what stood left of the place both vanish: the place is the first one now
        obtain ⟨ho, rfl⟩ := List.append_eq_nil_iff.mp hp
        rw [ho] at rest
        exact .rule mem rest
      | cons y p' => exact ih y p' (by rw [← hp]; simp only [List.append_assoc])

end Yields

/-- The grammar with the given rules. -/
def grammarOf [DecidableEq T] [DecidableEq N] (initial : N) (rules : List (ContextFreeRule T N)) :
    ContextFreeGrammar T :=
  ⟨N, initial, rules.toFinset⟩

section

variable [DecidableEq T] [DecidableEq N] {initial : N}

theorem yields_of_derives {form : List (Symbol T N)} {w : List T}
    (h : (grammarOf initial rules).Derives form (w.map .terminal)) : Yields rules form w := by
  induction h using Relation.ReflTransGen.head_induction_on with
  | refl => exact .word w
  | head step _ ih =>
    obtain ⟨r, mem, hr⟩ := step
    obtain ⟨p, q, rfl, rfl⟩ := hr.exists_parts
    exact .undo (List.mem_toFinset.mp mem) p q ih

theorem derives_of_yields {form : List (Symbol T N)} {w : List T} (h : Yields rules form w) :
    (grammarOf initial rules).Derives form (w.map .terminal) := by
  induction h with
  | nil => exact .refl _
  | @terminal a _ _ _ ih => exact ih.append_left [Symbol.terminal a]
  | @rule r form _ mem _ ih =>
    have step : (grammarOf initial rules).Produces (.nonterminal r.input :: form)
        (r.output ++ form) :=
      ⟨r, show r ∈ rules.toFinset from List.mem_toFinset.mpr mem, .head form⟩
    exact step.trans_derives ih

/-- **Leftmost derivations are enough.** -/
theorem mem_language_iff {w : List T} :
    w ∈ (grammarOf initial rules).language ↔ Yields rules [.nonterminal initial] w :=
  ⟨yields_of_derives, derives_of_yields⟩

end

end ContextFreeRule
