import ThreeAddress.Proofs.Analysis.Steps
import ThreeAddress.Proofs.Lexer.TokenCursor
import ThreeAddress.Proofs.Renaming.Components

/-!
# Two analyses in lockstep

Take two sources with the same tokens, except that they stand at other places and that the names are
others (`Stream.Renames`). The judgment

    Lockstep r x y R m m'

says that the parts `m` and `m'` of the two analyses take the same course: started in states that
are abreast, they both end in such states, with results that `R` relates, or they both stop for the
same reason and at the same position. It does not mention the sources, only their streams `x` and
`y`, so nothing can depend on the layout.

The recursion bounds of the two analyses may differ. A run that uses up its bound is therefore in
step with every other; that it never happens is known from elsewhere.

This module has the judgment, and a lemma for each step that the rules are put together from.
-/

namespace ThreeAddress

open Analyzer

/-! ## 1. Streams -/

/-- The lexeme, with another name if it is an identifier. -/
def Lexeme.rename (r : String → String) (l : Lexeme) : Lexeme :=
  if l.1 = .identifier then (l.1, r l.2) else l

/-- What a lexical error says, without its place. -/
def LexError.essence (e : LexError) : Flaw × Char :=
  (e.flaw, e.found)

namespace Stream

/-- The second stream is the first one with other names, up to places. No two names become one. -/
structure Renames (r : String → String) (x y : Stream) : Prop where
  lexemes : y.tokens.map Token.lexeme = x.tokens.map fun t => t.lexeme.rename r
  error : y.error.map LexError.essence = x.error.map LexError.essence
  injective : ∀ name ∈ identifiers x.tokens, ∀ other ∈ identifiers x.tokens,
    r name = r other → name = other

/-- The two tokens stand at the same position. -/
def Twins (x y : Stream) (t u : Token) : Prop :=
  ∃ k : Nat, x.tokens[k]? = some t ∧ y.tokens[k]? = some u

end Stream

variable {r : String → String} {x y : Stream} {t u : Token}

namespace Stream.Renames

theorem length_eq (h : x.Renames r y) : y.tokens.length = x.tokens.length := by
  have hlength := congrArg List.length h.lexemes
  rwa [List.length_map, List.length_map] at hlength

theorem lexeme_eq (h : x.Renames r y) (ht : x.Twins y t u) : u.lexeme = t.lexeme.rename r := by
  obtain ⟨k, htk, huk⟩ := ht
  have hget := congrArg (·[k]?) h.lexemes
  simp only [List.getElem?_map, htk, huk, Option.map_some, Option.some.injEq] at hget
  exact hget

theorem kind_eq (h : x.Renames r y) (ht : x.Twins y t u) : u.kind = t.kind := by
  have hkind := congrArg Prod.fst (h.lexeme_eq ht)
  unfold Lexeme.rename at hkind
  split at hkind
  · exact hkind
  · exact hkind

theorem text_eq (h : x.Renames r y) (ht : x.Twins y t u) (hk : t.kind ≠ .identifier) :
    u.text = t.text := by
  have htext := congrArg Prod.snd (h.lexeme_eq ht)
  rwa [Lexeme.rename, if_neg (show t.lexeme.1 ≠ .identifier from hk)] at htext

theorem name_eq (h : x.Renames r y) (ht : x.Twins y t u) (hk : t.kind = .identifier) :
    u.text = r t.text := by
  have htext := congrArg Prod.snd (h.lexeme_eq ht)
  rwa [Lexeme.rename, if_pos (show t.lexeme.1 = .identifier from hk)] at htext

theorem is_eq (h : x.Renames r y) (ht : x.Twins y t u) {kind : TokenKind} (hk : kind ≠ .identifier)
    (text : String) : u.is kind text = t.is kind text := by
  unfold Token.is
  rw [h.kind_eq ht]
  by_cases hkind : t.kind = kind
  · rw [h.text_eq ht (by rwa [hkind])]
  · rw [beq_false_of_ne hkind, Bool.false_and, Bool.false_and]

theorem keyword?_eq (h : x.Renames r y) (ht : x.Twins y t u) : u.keyword? = t.keyword? := by
  unfold Token.keyword?
  rw [h.kind_eq ht]
  by_cases hkind : t.kind = .keyword
  · rw [h.text_eq ht (by rw [hkind]; exact TokenKind.noConfusion)]
  · rw [if_neg hkind, if_neg hkind]

theorem mem_identifiers (ht : x.Twins y t u) (hk : t.kind = .identifier) :
    t.text ∈ identifiers x.tokens := by
  obtain ⟨k, htk, -⟩ := ht
  exact List.mem_map_of_mem (List.mem_filter.mpr ⟨List.mem_of_getElem? htk, decide_eq_true hk⟩)

theorem error_cases (h : x.Renames r y) :
    x.error = none ∧ y.error = none ∨ ∃ e e', x.error = some e ∧ y.error = some e' ∧
      e'.essence = e.essence := by
  have herror := h.error
  cases hx : x.error with
  | none =>
    rw [hx] at herror
    exact .inl ⟨rfl, Option.map_eq_none_iff.mp herror⟩
  | some e =>
    rw [hx] at herror
    obtain ⟨e', he', hessence⟩ := Option.map_eq_some_iff.mp herror
    exact .inr ⟨e, e', rfl, he', hessence⟩

/-- What stands at a position of one stream and of the other. -/
theorem items_twins (h : x.Renames r y) (k : Nat) :
    Option.Rel (x.Twins y) x.tokens[k]? y.tokens[k]? := by
  cases ht : x.tokens[k]? with
  | none =>
    have hend : y.tokens[k]? = none := by
      rw [List.getElem?_eq_none_iff] at ht ⊢
      rwa [h.length_eq]
    rw [hend]
    exact .none
  | some t =>
    obtain ⟨hlt, -⟩ := List.getElem?_eq_some_iff.mp ht
    obtain ⟨u, hu⟩ : ∃ u, y.tokens[k]? = some u :=
      ⟨_, List.getElem?_eq_getElem (by rwa [h.length_eq])⟩
    rw [hu]
    exact .some ⟨k, ht, hu⟩

end Stream.Renames

/-! ## 2. Stops -/

/-- The same cause, up to names and places. -/
inductive SameCause (r : String → String) : Cause → Cause → Prop
  | lexical {e e' : LexError} (h : e'.essence = e.essence) : SameCause r (.lexical e) (.lexical e')
  | unexpected (expected : String) {found found' : Option Token}
      (h : Option.Rel (fun t u => u.lexeme = t.lexeme.rename r) found found') :
      SameCause r (.unexpected expected found) (.unexpected expected found')
  | undeclared (name : String) :
      SameCause r (.declaration (.undeclared name)) (.declaration (.undeclared (r name)))
  | alreadyDeclared (name : String) :
      SameCause r (.declaration (.alreadyDeclared name)) (.declaration (.alreadyDeclared (r name)))
  | internal (e : InternalError) : SameCause r (.internal e) (.internal e)

/-- The same place with respect to the tokens: at the same one, right after it, or where the next
one cannot be cut out. -/
inductive SamePlace (x y : Stream) : Option Span → Option Span → Prop
  | nowhere : SamePlace x y none none
  | token {t u : Token} (h : x.Twins y t u) : SamePlace x y (some t.span) (some u.span)
  | after {t u : Token} (h : x.Twins y t u) :
      SamePlace x y (some ⟨t.span.offset + t.span.len, 0⟩) (some ⟨u.span.offset + u.span.len, 0⟩)
  | error {e e' : LexError} (h : x.error = some e) (h' : y.error = some e') :
      SamePlace x y (some e.span) (some e'.span)

/-! ## 3. The judgment -/

/-- The two analyses have come equally far. -/
structure Abreast (r : String → String) (x y : Stream) (s s' : AnalysisState) : Prop where
  lexer : ∃ k, s.lexer.Tracks x k ∧ s'.lexer.Tracks y k
  symbols : s'.symbols = s.symbols.rename r
  names : ∀ v ∈ s.symbols.symbols.toList, v.name ∈ identifiers x.tokens
  generator : s'.generator = s.generator.rename r
  inside : s'.inside = s.inside
  lastSpan : s.lastSpan = none ∧ s'.lastSpan = none ∨
    ∃ t u, x.Twins y t u ∧ s.lastSpan = some t.span ∧ s'.lastSpan = some u.span

namespace Abreast

variable {s s' : AnalysisState}

/-- The logs may differ. -/
theorem withLog (hs : Abreast r x y s s') (log log' : Array Event) :
    Abreast r x y { s with log } { s' with log := log' } :=
  ⟨hs.lexer, hs.symbols, hs.names, hs.generator, hs.inside, hs.lastSpan⟩

theorem withLexer (hs : Abreast r x y s s') {l l' : Lexer} {k : TokenCursor} (hl : l.Tracks x k)
    (hl' : l'.Tracks y k) : Abreast r x y { s with lexer := l } { s' with lexer := l' } :=
  ⟨⟨k, hl, hl'⟩, hs.symbols, hs.names, hs.generator, hs.inside, hs.lastSpan⟩

end Abreast

/-- The two analyses stop for the same reason. A complaint says where it stands and which categories
are open; a fault does not, but it comes when the two have come equally far. -/
inductive SameStop (r : String → String) (x y : Stream) (s s' : AnalysisState) : Stop → Stop → Prop
  | rejected {cause cause' : Cause} {span span' : Option Span} (stack : List NonTerminal)
      (hcause : SameCause r cause cause') (hplace : SamePlace x y span span') :
      SameStop r x y s s' (.rejected cause span stack) (.rejected cause' span' stack)
  | fault (f : Fault) (habreast : Abreast r x y s s') : SameStop r x y s s' (.fault f) (.fault f)

section

variable {α β γ δ : Type}

/-- The two runs end alike, or one of them has used up its bound. -/
def Agree (r : String → String) (x y : Stream) (R : α → β → Prop) :
    EStateM.Result Stop AnalysisState α → EStateM.Result Stop AnalysisState β → Prop
  | .ok a s, .ok b s' => R a b ∧ Abreast r x y s s'
  | .error stop s, .error stop' s' =>
    stop = .fault .recursionBound ∨ stop' = .fault .recursionBound ∨ SameStop r x y s s' stop stop'
  | .ok _ _, .error stop' _ => stop' = .fault .recursionBound
  | .error stop _, .ok _ _ => stop = .fault .recursionBound

/-- **The two parts take the same course.** -/
def Lockstep (r : String → String) (x y : Stream) (R : α → β → Prop) (m : Analyzer α)
    (m' : Analyzer β) : Prop :=
  ∀ s s', Abreast r x y s s' → Agree r x y R (m s) (m' s')

variable {R : α → β → Prop} {S : γ → δ → Prop} {m : Analyzer α} {m' : Analyzer β}

theorem Agree.ok {a : α} {b : β} {s s' : AnalysisState} (h : R a b) (hs : Abreast r x y s s') :
    Agree r x y R (.ok a s) (.ok b s') :=
  ⟨h, hs⟩

theorem Agree.error {stop stop' : Stop} {s s' : AnalysisState}
    (h : SameStop r x y s s' stop stop') : Agree r x y R (.error stop s) (.error stop' s') :=
  .inr (.inr h)

namespace Lockstep

theorem pure {a : α} {b : β} (h : R a b) : Lockstep r x y R (Pure.pure a) (Pure.pure b) :=
  fun _ _ hs => .ok h hs

/-- Steps in a row. -/
theorem bind {f : α → Analyzer γ} {f' : β → Analyzer δ} (h : Lockstep r x y R m m')
    (hf : ∀ a b, R a b → Lockstep r x y S (f a) (f' b)) :
    Lockstep r x y S (m >>= f) (m' >>= f') := by
  intro s s' hs
  have hm := h s s' hs
  cases hrun : m s with
  | ok a s₁ =>
    rw [hrun] at hm
    rw [run_bind_ok hrun]
    cases hrun' : m' s' with
    | ok b s₁' =>
      rw [hrun'] at hm
      rw [run_bind_ok hrun']
      exact hf a b hm.1 s₁ s₁' hm.2
    | error stop' s₁' =>
      rw [hrun'] at hm
      rw [run_bind_error hrun', show stop' = _ from hm]
      cases f a s₁ with
      | ok => exact rfl
      | error => exact .inr (.inl rfl)
  | error stop s₁ =>
    rw [hrun] at hm
    rw [run_bind_error hrun]
    cases hrun' : m' s' with
    | ok b s₁' =>
      rw [hrun'] at hm
      rw [run_bind_ok hrun', show stop = _ from hm]
      cases f' b s₁' with
      | ok => exact rfl
      | error => exact .inl rfl
    | error stop' s₁' =>
      rw [hrun'] at hm
      rw [run_bind_error hrun']
      exact hm

/-- The first analysis has used up its bound. -/
theorem late : Lockstep r x y R (faulty .recursionBound) m' := by
  intro s s' _
  show Agree r x y R (.error (.fault .recursionBound) s) (m' s')
  cases m' s' with
  | ok => exact rfl
  | error => exact .inl rfl

/-- The second one has. -/
theorem late' : Lockstep r x y R m (faulty .recursionBound) := by
  intro s s' _
  show Agree r x y R (m s) (.error (.fault .recursionBound) s')
  cases m s with
  | ok => exact rfl
  | error => exact .inr (.inl rfl)

/-- Parts with a recursion bound are in step if they are while neither bound is used up. -/
theorem of_bounds (m : Nat → Analyzer α) (m' : Nat → Analyzer β) {bound bound' : Nat}
    (hzero : m 0 = faulty .recursionBound) (hzero' : m' 0 = faulty .recursionBound)
    (h : ∀ b b', bound = b + 1 → Lockstep r x y R (m (b + 1)) (m' (b' + 1))) :
    Lockstep r x y R (m bound) (m' bound') := by
  cases bound with
  | zero =>
    rw [hzero]
    exact .late
  | succ b =>
    cases bound' with
    | zero =>
      rw [hzero']
      exact .late'
    | succ b' => exact h b b' rfl

theorem ite {c c' : Prop} [Decidable c] [Decidable c'] {n : Analyzer α} {n' : Analyzer β}
    (hc : c' ↔ c) (h : c → Lockstep r x y R m m') (hn : ¬ c → Lockstep r x y R n n') :
    Lockstep r x y R (if c then m else n) (if c' then m' else n') := by
  by_cases hcase : c
  · rw [if_pos hcase, if_pos (hc.mpr hcase)]
    exact h hcase
  · rw [if_neg hcase, if_neg (mt hc.mp hcase)]
    exact hn hcase

theorem get_bind {f : AnalysisState → Analyzer α} {f' : AnalysisState → Analyzer β}
    (h : ∀ s s', Abreast r x y s s' → Lockstep r x y R (f s) (f' s')) :
    Lockstep r x y R (get >>= f) (get >>= f') := by
  intro s s' hs
  rw [run_bind_ok get_run, run_bind_ok get_run]
  exact h s s' hs s s' hs

theorem change {f f' : AnalysisState → AnalysisState}
    (h : ∀ s s', Abreast r x y s s' → Abreast r x y (f s) (f' s')) :
    Lockstep r x y Eq (modify f : Analyzer Unit) (modify f' : Analyzer Unit) :=
  fun s s' hs => .ok rfl (h s s' hs)

end Lockstep

end

end ThreeAddress
