import ThreeAddress.Proofs.Grammar.Leftmost

/-!
# Halfway through a derivation

A parser that recognizes each nonterminal by a call has a path of calls open at any moment: the
nonterminal that it started with, one that stands in a right side of it, one that stands in a right
side of that, and so on. Left of the path everything has been read, and right of it nothing.

`Halfway rules form path word` is that situation, said with the grammar alone. It has one
constructor for each thing that can be true of the first symbol of the form: it has not been
touched, it has been read, or it is the outermost nonterminal of the path. A path is a chain of
occurrences (`Halfway.isChain`), and it cannot lead out of a set of symbols that is closed under the
rules (`Halfway.forall_of_closed`).
-/

namespace ContextFreeRule

variable {T N : Type}

/-- A parser of the form has read the word. It stands in front of a symbol that it still has to
read, and the nonterminals of the path are open. -/
inductive Halfway (rules : List (ContextFreeRule T N)) : List (Symbol T N) → List N → List T → Prop
  | front {X : Symbol T N} {form : List (Symbol T N)} : Halfway rules (X :: form) [] []
  | terminal {a : T} {form : List (Symbol T N)} {path : List N} {word : List T}
      (rest : Halfway rules form path word) : Halfway rules (.terminal a :: form) path (a :: word)
  | past {A : N} {form : List (Symbol T N)} {path : List N} {u v : List T}
      (whole : Yields rules [.nonterminal A] u) (rest : Halfway rules form path v) :
      Halfway rules (.nonterminal A :: form) path (u ++ v)
  | inside {r : ContextFreeRule T N} {form : List (Symbol T N)} {path : List N} {word : List T}
      (mem : r ∈ rules) (under : Halfway rules r.output path word) :
      Halfway rules (.nonterminal r.input :: form) (r.input :: path) word

/-- The second nonterminal stands in a right side of the first. -/
def Occurs (rules : List (ContextFreeRule T N)) (A B : N) : Prop :=
  ∃ r ∈ rules, r.input = A ∧ .nonterminal B ∈ r.output

/-- A set of symbols that contains the right sides of its nonterminals. -/
def Closed (rules : List (ContextFreeRule T N)) (P : Symbol T N → Prop) : Prop :=
  ∀ r ∈ rules, P (.nonterminal r.input) → ∀ X ∈ r.output, P X

variable {rules : List (ContextFreeRule T N)} {form : List (Symbol T N)} {path : List N}
  {word : List T} {P : Symbol T N → Prop}

/-- **Each nonterminal of the path occurs in a right side of the one before it**, and the first one
in the form. -/
theorem Halfway.isChain (h : Halfway rules form path word) :
    path.IsChain (Occurs rules) ∧ ∀ A ∈ path.head?, .nonterminal A ∈ form := by
  induction h with
  | front => exact ⟨.nil, fun A hA => by cases hA⟩
  | terminal rest ih => exact ⟨ih.1, fun A hA => List.mem_cons_of_mem _ (ih.2 A hA)⟩
  | past whole rest ih => exact ⟨ih.1, fun A hA => List.mem_cons_of_mem _ (ih.2 A hA)⟩
  | @inside r form path word mem under ih =>
    refine ⟨?_, fun A hA => by cases hA; exact List.mem_cons_self⟩
    cases path with
    | nil => exact .singleton _
    | cons B path => exact .cons_cons ⟨r, mem, rfl, ih.2 B rfl⟩ ih.1

theorem Yields.forall_of_closed (hP : Closed rules P) (h : Yields rules form word)
    (hform : ∀ X ∈ form, P X) : ∀ a ∈ word, P (.terminal a) := by
  induction h with
  | nil => exact fun a ha => absurd ha List.not_mem_nil
  | terminal rest ih =>
    obtain ⟨hfirst, hrest⟩ := List.forall_mem_cons.mp hform
    exact List.forall_mem_cons.mpr ⟨hfirst, ih hrest⟩
  | @rule r form word mem rest ih =>
    obtain ⟨hfirst, hrest⟩ := List.forall_mem_cons.mp hform
    exact ih (List.forall_mem_append.mpr ⟨hP r mem hfirst, hrest⟩)

theorem Halfway.forall_of_closed (hP : Closed rules P) (h : Halfway rules form path word)
    (hform : ∀ X ∈ form, P X) : ∀ a ∈ word, P (.terminal a) := by
  induction h with
  | front => exact fun a ha => absurd ha List.not_mem_nil
  | terminal rest ih =>
    obtain ⟨hfirst, hrest⟩ := List.forall_mem_cons.mp hform
    exact List.forall_mem_cons.mpr ⟨hfirst, ih hrest⟩
  | past whole rest ih =>
    obtain ⟨hfirst, hrest⟩ := List.forall_mem_cons.mp hform
    exact List.forall_mem_append.mpr
      ⟨whole.forall_of_closed hP (List.forall_mem_singleton.mpr hfirst), ih hrest⟩
  | inside mem under ih => exact ih (hP _ mem (hform _ List.mem_cons_self))

/-- Halfway through a form that ends with a terminal, that terminal has not been read. -/
theorem Halfway.forall_of_closed_concat {a : T} (hP : Closed rules P)
    (h : Halfway rules (form ++ [.terminal a]) path word) (hform : ∀ X ∈ form, P X) :
    ∀ b ∈ word, P (.terminal b) := by
  induction form generalizing word with
  | nil =>
    cases h with
    | front => exact fun b hb => absurd hb List.not_mem_nil
    | terminal rest => cases rest
  | cons X form ih =>
    obtain ⟨hfirst, hrest⟩ := List.forall_mem_cons.mp hform
    cases h with
    | front => exact fun b hb => absurd hb List.not_mem_nil
    | terminal rest => exact List.forall_mem_cons.mpr ⟨hfirst, ih rest hrest⟩
    | past whole rest =>
      exact List.forall_mem_append.mpr
        ⟨whole.forall_of_closed hP (List.forall_mem_singleton.mpr hfirst), ih rest hrest⟩
    | inside mem under => exact under.forall_of_closed hP (hP _ mem hfirst)

/-- Every terminal of a form stands in the words of the form. -/
theorem Yields.mem_of_mem {a : T} (h : Yields rules form word) (ha : .terminal a ∈ form) :
    a ∈ word := by
  induction h with
  | nil => cases ha
  | terminal rest ih =>
    rcases List.mem_cons.mp ha with heq | hmem
    · cases heq
      exact List.mem_cons_self
    · exact List.mem_cons_of_mem _ (ih hmem)
  | rule mem rest ih =>
    rcases List.mem_cons.mp ha with heq | hmem
    · cases heq
    · exact ih (List.mem_append_right _ hmem)

/-! ## States that follow the words

A state changes with every terminal that is read. If it is known for each nonterminal how its words
change the state, the same follows for the words of every form, provided that the right sides of
each nonterminal keep to what is known for it. Halfway through a form there is the length of the
path besides. -/

section

variable {S : Type} (step : S → T → S) (R : N → S → S → Prop) (H : N → S → Nat → S → Prop)

/-- Reading the form leads from one state to the other, if each nonterminal does what `R` says. -/
def Along : List (Symbol T N) → S → S → Prop
  | [], s, s' => s' = s
  | .terminal a :: form, s, s' => Along form (step s a) s'
  | .nonterminal A :: form, s, s' => ∃ m, R A s m ∧ Along form m s'

/-- Reading a part of the form leads from one state to the other down a path of some length, if each
nonterminal that is read does what `R` says and one that is open does what `H` says. -/
def Midway : List (Symbol T N) → S → Nat → S → Prop
  | [], _, _, _ => False
  | .terminal a :: form, s, n, s' => n = 0 ∧ s' = s ∨ Midway form (step s a) n s'
  | .nonterminal A :: form, s, n, s' =>
    n = 0 ∧ s' = s ∨ (∃ m, R A s m ∧ Midway form m n s') ∨ H A s n s'

variable {step R H}

theorem along_append {form' : List (Symbol T N)} {s s' : S} :
    Along step R (form ++ form') s s' ↔ ∃ m, Along step R form s m ∧ Along step R form' m s' := by
  induction form generalizing s with
  | nil => simp [Along]
  | cons X form ih =>
    cases X with
    | terminal a => simp [Along, ih]
    | nonterminal A =>
      simp only [List.cons_append, Along, ih]
      exact ⟨fun ⟨m, hm, m', h, h'⟩ => ⟨m', ⟨m, hm, h⟩, h'⟩,
        fun ⟨m', ⟨m, hm, h⟩, h'⟩ => ⟨m, hm, m', h, h'⟩⟩

theorem Yields.along (hR : ∀ r ∈ rules, ∀ s s', Along step R r.output s s' → R r.input s s')
    (h : Yields rules form word) (s : S) : Along step R form s (word.foldl step s) := by
  induction h generalizing s with
  | nil => rfl
  | terminal rest ih => exact ih _
  | @rule r form word mem rest ih =>
    obtain ⟨m, hm, hrest⟩ := along_append.mp (ih s)
    exact ⟨m, hR r mem s m hm, hrest⟩

theorem Halfway.midway (hR : ∀ r ∈ rules, ∀ s s', Along step R r.output s s' → R r.input s s')
    (hH : ∀ r ∈ rules, ∀ s n s', Midway step R H r.output s n s' → H r.input s (n + 1) s')
    (h : Halfway rules form path word) (s : S) :
    Midway step R H form s path.length (word.foldl step s) := by
  induction h generalizing s with
  | @front X form => cases X <;> exact .inl ⟨rfl, rfl⟩
  | terminal rest ih => exact .inr (ih _)
  | past whole rest ih =>
    -- the state behind the nonterminal is where the rest of the form starts
    obtain ⟨m, hm, hu⟩ := whole.along hR s
    rw [List.foldl_append, show _ = m from hu]
    exact .inr (.inl ⟨m, hm, ih m⟩)
  | inside mem under ih => exact .inr (.inr (hH _ mem _ _ _ (ih s)))

end

end ContextFreeRule
