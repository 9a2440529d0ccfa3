import ThreeAddress.Proofs.Grammar.Leftmost

/-!
# Predictive parsing

A predictive parser keeps the form that it still expects and looks at the next item of its input. A
terminal at the front of the form has to be that item; a nonterminal there is replaced by the right
side that a table names for the item. The parser never goes back.

For which grammars and tables is that enough? `PredictiveTable` has the classical conditions. They
speak about the rules one by one, so that for a given grammar they are checked by evaluation. What
they buy is the **valid-prefix property**, in two halves.

* `PredictiveTable.Moves.reads`: what a parser has read is the beginning of a word, namely of every
  word that begins so and goes on with what the parser still expects.
* `PredictiveTable.Moves.forced`: a word that begins like the input goes on with what the parser
  still expects. So when the parser is stuck at an item, no word has the input up to that item as a
  beginning (`PredictiveTable.Stuck.not_yields`).

An item of the input is `none` if it is no terminal of the grammar at all. The end of the input
looks the same to the parser.
-/

namespace ContextFreeRule

/-! ## 1. What a parser knows of a symbol -/

/-- Which symbols can vanish, what their words can start with, and what can come after them. -/
structure Lookahead (T N : Type) where
  nullable : N → Bool
  first : N → List T
  follow : N → List T

namespace Lookahead

variable {T N : Type} (look : Lookahead T N)

/-- Whether the empty word is among the words of a form. -/
def vanishes : List (Symbol T N) → Bool
  | [] => true
  | .terminal _ :: _ => false
  | .nonterminal A :: form => look.nullable A && vanishes form

/-- What the words of a form can start with. -/
def starts : List (Symbol T N) → List T
  | [] => []
  | .terminal a :: _ => [a]
  | .nonterminal A :: form => look.first A ++ if look.nullable A then starts form else []

/-- What comes after a symbol in a right side of `A`, or after `A` itself if the symbol can be the
last one, is among what can come after the symbol. -/
def Accounts (A : N) : List (Symbol T N) → Prop
  | [] => True
  | .terminal _ :: form => Accounts A form
  | .nonterminal B :: form =>
    (∀ a ∈ look.starts form, a ∈ look.follow B) ∧
    (look.vanishes form = true → ∀ a ∈ look.follow A, a ∈ look.follow B) ∧
    Accounts A form

instance decidableAccounts [DecidableEq T] (A : N) :
    (form : List (Symbol T N)) → Decidable (look.Accounts A form)
  | [] => inferInstanceAs (Decidable True)
  | .terminal _ :: form => decidableAccounts A form
  | .nonterminal _ :: form =>
    have := decidableAccounts A form
    inferInstanceAs (Decidable (_ ∧ _ ∧ _))

/-- In an expected form every symbol is followed by what can come after it. -/
def Followed : List (Symbol T N) → Prop
  | [] => True
  | .terminal _ :: form => Followed form
  | .nonterminal A :: form => (∀ a ∈ look.starts form, a ∈ look.follow A) ∧ Followed form

theorem vanishes_append (α β : List (Symbol T N)) :
    look.vanishes (α ++ β) = (look.vanishes α && look.vanishes β) := by
  induction α with
  | nil => simp [vanishes]
  | cons X α ih =>
    cases X with
    | terminal a => simp [vanishes]
    | nonterminal A => simp [vanishes, ih, Bool.and_assoc]

theorem mem_starts_append {α β : List (Symbol T N)} {a : T} :
    a ∈ look.starts (α ++ β) ↔
      a ∈ look.starts α ∨ look.vanishes α = true ∧ a ∈ look.starts β := by
  induction α with
  | nil => simp [starts, vanishes]
  | cons X α ih =>
    cases X with
    | terminal b => simp [starts, vanishes]
    | nonterminal A =>
      cases hA : look.nullable A with
      | false => simp [starts, vanishes, hA]
      | true => simp [starts, vanishes, hA, ih, or_assoc]

/-- The right side of a rule may stand where its left side did. -/
theorem Followed.replace {A : N} {out form : List (Symbol T N)} (hout : look.Accounts A out)
    (h : look.Followed (.nonterminal A :: form)) : look.Followed (out ++ form) := by
  obtain ⟨hA, hform⟩ := h
  induction out with
  | nil => exact hform
  | cons X out ih =>
    cases X with
    | terminal a => exact ih hout
    | nonterminal B =>
      obtain ⟨hstarts, hlast, hrest⟩ := hout
      refine ⟨fun a ha => ?_, ih hrest⟩
      rcases (look.mem_starts_append).mp ha with ha | ⟨hv, ha⟩
      · exact hstarts a ha
      · exact hlast hv a (hA a ha)

end Lookahead

/-! ## 2. Tables -/

/-- A table that names a right side for a nonterminal and the next item. Every right side is named
for each item that its words can start with, and for what can come after it if it can vanish. -/
structure PredictiveTable {T N : Type} (rules : List (ContextFreeRule T N)) extends
    Lookahead T N where
  predict : N → Option T → Option (List (Symbol T N))
  predict_mem : ∀ A item out, predict A item = some out → ⟨A, out⟩ ∈ rules
  nullable_of_rule : ∀ r ∈ rules, toLookahead.vanishes r.output = true → nullable r.input = true
  first_of_rule : ∀ r ∈ rules, ∀ a ∈ toLookahead.starts r.output, a ∈ first r.input
  follow_of_rule : ∀ r ∈ rules, toLookahead.Accounts r.input r.output
  predict_of_start : ∀ r ∈ rules, ∀ a ∈ toLookahead.starts r.output,
    predict r.input (some a) = some r.output
  predict_of_follow : ∀ r ∈ rules, toLookahead.vanishes r.output = true →
    ∀ a ∈ follow r.input, predict r.input (some a) = some r.output
  predict_of_end : ∀ r ∈ rules, toLookahead.vanishes r.output = true →
    predict r.input none = some r.output

namespace PredictiveTable

variable {T N : Type} {rules : List (ContextFreeRule T N)} (table : PredictiveTable rules)

theorem mem_starts_of_yields {form : List (Symbol T N)} {a : T} {w : List T}
    (h : Yields rules form (a :: w)) : a ∈ table.starts form := by
  generalize hword : a :: w = word at h
  induction h with
  | nil => simp at hword
  | terminal _ _ =>
    obtain ⟨rfl, rfl⟩ := List.cons.inj hword
    simp [Lookahead.starts]
  | @rule r form _ mem _ ih =>
    simp only [Lookahead.starts, List.mem_append]
    rcases (table.mem_starts_append).mp (ih hword) with ha | ⟨hv, ha⟩
    · exact Or.inl (table.first_of_rule r mem a ha)
    · rw [if_pos (table.nullable_of_rule r mem hv)]
      exact Or.inr ha

theorem vanishes_of_yields {form : List (Symbol T N)} (h : Yields rules form []) :
    table.vanishes form = true := by
  generalize hword : ([] : List T) = word at h
  induction h with
  | nil => rfl
  | terminal _ _ => simp at hword
  | @rule r form _ mem _ ih =>
    have hv := ih hword
    rw [table.vanishes_append, Bool.and_eq_true] at hv
    simp only [Lookahead.vanishes, Bool.and_eq_true]
    exact ⟨table.nullable_of_rule r mem hv.1, hv.2⟩

/-- The table names the right side with which a derivation goes on, whatever the word. -/
theorem exists_predict_of_yields {A : N} {form : List (Symbol T N)} {w : List T}
    (hf : table.Followed (.nonterminal A :: form)) (h : Yields rules (.nonterminal A :: form) w) :
    ∃ out, table.predict A w.head? = some out ∧ Yields rules (out ++ form) w := by
  cases h with
  | @rule r _ _ mem rest =>
    refine ⟨r.output, ?_, rest⟩
    cases w with
    | nil =>
      have hv := table.vanishes_of_yields rest
      rw [table.vanishes_append, Bool.and_eq_true] at hv
      exact table.predict_of_end r mem hv.1
    | cons a w =>
      rcases (table.mem_starts_append).mp (table.mem_starts_of_yields rest) with ha | ⟨hv, ha⟩
      · exact table.predict_of_start r mem a ha
      · exact table.predict_of_follow r mem hv a (hf.1 a ha)

/-! ## 3. Runs of a parser -/

/-- The moves of a parser: from an expected form and an input to those that are left. -/
inductive Moves : List (Symbol T N) → List (Option T) → List (Symbol T N) → List (Option T) → Prop
  | refl {form : List (Symbol T N)} {input : List (Option T)} : Moves form input form input
  | expand {A : N} {out form form' : List (Symbol T N)} {input input' : List (Option T)}
      (named : table.predict A input.head?.join = some out)
      (rest : Moves (out ++ form) input form' input') :
      Moves (.nonterminal A :: form) input form' input'
  | shift {a : T} {form form' : List (Symbol T N)} {input input' : List (Option T)}
      (rest : Moves form input form' input') :
      Moves (.terminal a :: form) (some a :: input) form' input'

/-- The parser cannot go on: nothing is expected but there is an item, the next item is not the
expected terminal, or the table is empty. There is no next item at the end of the input. -/
def Stuck : List (Symbol T N) → Option (Option T) → Prop
  | [], next => next ≠ none
  | .terminal a :: _, next => next ≠ some (some a)
  | .nonterminal A :: _, next => table.predict A next.join = none

namespace Moves

variable {table} {form form' form'' : List (Symbol T N)} {input input' input'' : List (Option T)}

theorem trans (h : table.Moves form input form' input')
    (h' : table.Moves form' input' form'' input'') : table.Moves form input form'' input'' := by
  induction h with
  | refl => exact h'
  | expand named _ ih => exact .expand named (ih h')
  | shift _ ih => exact .shift (ih h')

/-- **A parser only reads beginnings of words.** -/
theorem reads (h : table.Moves form input form' input') :
    ∃ word : List T, input = word.map some ++ input' ∧
      ∀ w, Yields rules form' w → Yields rules form (word ++ w) := by
  induction h with
  | refl => exact ⟨[], rfl, fun _ hw => hw⟩
  | expand named _ ih =>
    obtain ⟨word, hinput, hword⟩ := ih
    refine ⟨word, hinput, fun w hw => ?_⟩
    exact .rule (table.predict_mem _ _ _ named) (hword w hw)
  | @shift a _ _ _ _ _ ih =>
    obtain ⟨word, hinput, hword⟩ := ih
    exact ⟨a :: word, by rw [hinput]; rfl, fun w hw => .terminal (hword w hw)⟩

theorem length_le (h : table.Moves form input form' input') : input'.length ≤ input.length := by
  induction h with
  | refl => exact Nat.le_refl _
  | expand _ _ ih => exact ih
  | shift _ ih => exact Nat.le_succ_of_le ih

theorem followed (h : table.Moves form input form' input') (hf : table.Followed form) :
    table.Followed form' := by
  induction h with
  | refl => exact hf
  | @expand A out _ _ input _ named _ ih =>
    have hmem := table.predict_mem _ _ _ named
    exact ih (Lookahead.Followed.replace _ (table.follow_of_rule _ hmem) hf)
  | shift _ ih => exact ih hf

/-- **Words that begin like the input go on with what the parser still expects.** The word may
leave the input behind after the items that were read, but not before the next one: the parser has
looked at it. -/
theorem forced {word w : List T} (h : table.Moves form input form' input')
    (hf : table.Followed form) (hinput : input = word.map some ++ input')
    (hnext : w.head? = input'.head?.join) (hw : Yields rules form (word ++ w)) :
    Yields rules form' w := by
  induction h generalizing word with
  | refl =>
    have : word = [] := by
      have := congrArg List.length hinput
      simpa using this
    rwa [this] at hw
  | @expand A out form _ input input' named _ ih =>
    have hhead : (word ++ w).head? = input.head?.join := by
      cases word with
      | nil => rw [hinput]; exact hnext
      | cons a word => rw [hinput]; rfl
    obtain ⟨out', hout', hrest⟩ := table.exists_predict_of_yields hf hw
    rw [hhead, named] at hout'
    obtain rfl := Option.some.inj hout'
    have hmem := table.predict_mem _ _ _ named
    exact ih (Lookahead.Followed.replace _ (table.follow_of_rule _ hmem) hf) hinput hnext hrest
  | @shift a form _ input input' rest ih =>
    cases word with
    | nil =>
      have := rest.length_le
      rw [show input' = some a :: input from hinput.symm] at this
      exact absurd this (Nat.not_succ_le_self _)
    | cons b word =>
      obtain ⟨hab, htail⟩ := List.cons.inj hinput
      obtain rfl := Option.some.inj hab
      cases hw with
      | terminal hw => exact ih hf htail hnext hw

end Moves

variable {table}

/-- No word goes on with the item at which a parser is stuck. -/
theorem Stuck.not_yields {form : List (Symbol T N)} {w : List T}
    (hs : table.Stuck form (w.head?.map some)) (hf : table.Followed form) :
    ¬ Yields rules form w := by
  intro h
  cases form with
  | nil =>
    cases h
    exact hs rfl
  | cons X form =>
    cases X with
    | terminal a =>
      cases h with
      | terminal _ => exact hs rfl
    | nonterminal A =>
      obtain ⟨out, hout, _⟩ := table.exists_predict_of_yields hf h
      have hnone : table.predict A (w.head?.map some).join = none := hs
      rw [show (w.head?.map some).join = w.head? by cases w <;> rfl, hout] at hnone
      cases hnone

end PredictiveTable

/-! ## 4. Forms that have a word -/

section

variable {T N : Type} {rules : List (ContextFreeRule T N)}

/-- A form whose nonterminals have words has one. -/
theorem exists_yields_of_nonterminals {form : List (Symbol T N)}
    (h : ∀ A, .nonterminal A ∈ form → ∃ w, Yields rules [.nonterminal A] w) :
    ∃ w, Yields rules form w := by
  induction form with
  | nil => exact ⟨[], .nil⟩
  | cons X form ih =>
    obtain ⟨w, hw⟩ := ih fun A hA => h A (List.mem_cons_of_mem _ hA)
    cases X with
    | terminal a => exact ⟨a :: w, .terminal hw⟩
    | nonterminal A =>
      obtain ⟨v, hv⟩ := h A List.mem_cons_self
      exact ⟨v ++ w, hv.append hw⟩

/-- A right side all of whose nonterminals have a rank below `n`. -/
def Below (rank : N → Nat) (n : Nat) : List (Symbol T N) → Bool
  | [] => true
  | .terminal _ :: form => Below rank n form
  | .nonterminal A :: form => decide (rank A < n) && Below rank n form

theorem rank_lt_of_below {rank : N → Nat} {n : Nat} {form : List (Symbol T N)}
    (h : Below rank n form = true) {A : N} (hA : .nonterminal A ∈ form) : rank A < n := by
  induction form with
  | nil => simp at hA
  | cons X form ih =>
    cases X with
    | terminal a => exact ih h (by simpa using hA)
    | nonterminal B =>
      simp only [Below, Bool.and_eq_true, decide_eq_true_eq] at h
      rcases List.mem_cons.mp hA with heq | hA
      · cases heq
        exact h.1
      · exact ih h.2 hA

/-- If the nonterminals can be ranked so that each has a rule that leads to lower ones only, then
every form has a word. -/
theorem exists_yields_of_rank (rank : N → Nat)
    (h : ∀ A, ∃ r ∈ rules, r.input = A ∧ Below rank (rank A) r.output = true)
    (form : List (Symbol T N)) : ∃ w, Yields rules form w := by
  have nonterminal : ∀ n A, rank A < n → ∃ w, Yields rules [.nonterminal A] w := by
    intro n
    induction n with
    | zero => intro A hA; exact absurd hA (Nat.not_lt_zero _)
    | succ n ih =>
      intro A hA
      obtain ⟨r, mem, rfl, hbelow⟩ := h A
      have hlower : ∀ B, .nonterminal B ∈ r.output → ∃ w, Yields rules [.nonterminal B] w :=
        fun B hB =>
          ih B (Nat.lt_of_lt_of_le (rank_lt_of_below hbelow hB) (Nat.lt_succ_iff.mp hA))
      obtain ⟨w, hw⟩ := exists_yields_of_nonterminals hlower
      exact ⟨w, .rule mem (by rwa [List.append_nil])⟩
  exact exists_yields_of_nonterminals fun A _ => nonterminal (rank A + 1) A (Nat.lt_succ_self _)

end

end ContextFreeRule
