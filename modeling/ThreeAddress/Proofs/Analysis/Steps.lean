import ThreeAddress.Proofs.Analysis.Reads

/-!
# The steps of an analysis

The rules of an analysis are put together from a few steps: looking at the next token, taking it and
giving it back, wanting a certain one, declaring and using a name, emitting code, filling in a jump.
For each step there is a lemma in the judgment `Reads`, or in `Holding` if a token has been taken.
They are stated with what comes after the step (`Reads.peek_bind`, `Holding.shift`, …), so a proof
about a rule follows its text from the front.

What a token is decides how the parser goes on, so most of the lemmas have one premise for each
answer of the step. The ways to stop are settled here: no proof about a rule deals with the lexer's
error or with the source's end unless the rule does.
-/

namespace ThreeAddress

open Grammar Analyzer

section

variable {α β : Type} {x : Scanned} {π : Point} {p : Products}
  {form : List (ContextFreeRule.Item Terminal NonTerminal)} {due : Nat}
  {seen coming rest : List Token} {t : Token} {s : AnalysisState} {Q : Point → β → Products → Prop}

/-! ## 1. Steps of the lexer -/

theorem onLexer_run {call : Lexer → Step Lexer α} {s : AnalysisState} {a : α} {l : Lexer}
    {events : List Event} (h : call s.lexer = ⟨a, l, events⟩) :
    onLexer call s = .ok a { s with lexer := l, log := s.log ++ events } := by
  show EStateM.Result.ok (call s.lexer).answer
    { s with lexer := (call s.lexer).next, log := s.log ++ (call s.lexer).events } = _
  rw [h]

theorem products_onLexer {s : AnalysisState} {l : Lexer} {events : List Event}
    (h : ∀ event ∈ events, event.narrowed? = none) :
    { s with lexer := l, log := s.log ++ events }.products = s.products := by
  have hlog : events.filterMap Event.narrowed? = [] := List.filterMap_eq_nil_iff.mpr h
  simp [AnalysisState.products, hlog]

theorem narrowed_of_subset_scanned {events : List Event} (h : events ⊆ [.scanned t]) :
    ∀ event ∈ events, event.narrowed? = none := by
  intro event hevent
  rw [List.mem_singleton.mp (h hevent)]
  rfl

theorem get_run : (get : Analyzer AnalysisState) s = .ok s s :=
  rfl

theorem Reads.peek_bind {f : Option Token → Analyzer β}
    (h : Reads x ⟨form, due, seen, coming⟩ p (f coming.head?) Q) :
    Reads x ⟨form, due, seen, coming⟩ p (peek >>= f) Q := by
  intro hsound s hat hp
  have hstream := hat.stream
  cases coming with
  | cons t rest =>
    obtain ⟨l, events, hpeek, hl, hevents⟩ := Lexer.peek_of_cons hstream
    have hrun : peek s = .ok (some t) { s with lexer := l, log := s.log ++ events } := by
      rw [Analyzer.peek, run_bind_ok (onLexer_run hpeek)]
      rfl
    rw [run_bind_ok hrun]
    refine h hsound _ ⟨hl, hat.lastSpan⟩ ?_
    rw [products_onLexer (narrowed_of_subset_scanned hevents), hp]
  | nil =>
    cases herror : x.error with
    | none =>
      rw [herror] at hstream
      obtain ⟨l, hpeek, hl⟩ := Lexer.peek_of_end hstream
      have hrun : peek s = .ok none { s with lexer := l, log := s.log ++ ([] : List Event) } := by
        rw [Analyzer.peek, run_bind_ok (onLexer_run hpeek)]
        rfl
      rw [run_bind_ok hrun]
      refine h hsound _ ⟨by rw [herror]; exact hl, hat.lastSpan⟩ ?_
      rw [products_onLexer (fun _ h => absurd h List.not_mem_nil), hp]
    | some e =>
      rw [herror] at hstream
      obtain ⟨l, hpeek⟩ := Lexer.peek_of_error hstream
      have hrun : peek s = .error (.rejected (.lexical e) (some e.span) s.inside.reverse)
          { s with lexer := l, log := s.log ++ ([] : List Event) } := by
        rw [Analyzer.peek, run_bind_ok (onLexer_run hpeek)]
        rfl
      rw [run_bind_error hrun]
      exact ⟨_, _, hsound, .lexical rfl herror⟩

theorem Reads.consume_bind {f : Option Token → Analyzer β}
    (hend : coming = [] → x.error = none → Reads x ⟨form, due, seen, []⟩ p (f none) Q)
    (htoken : ∀ t rest, coming = t :: rest → Holding x form due seen t rest p (f (some t)) Q) :
    Reads x ⟨form, due, seen, coming⟩ p (consume >>= f) Q := by
  intro hsound s hat hp
  have hstream := hat.stream
  cases coming with
  | cons t rest =>
    obtain ⟨l, events, hnext, hl, hlast, hpushback, hevents⟩ := Lexer.next_of_cons hstream
    have hrun : consume s = .ok (some t)
        { s with lexer := l, log := (s.log ++ events).push (.consumed t),
                 lastSpan := some t.span } := by
      rw [Analyzer.consume, run_bind_ok (onLexer_run hnext)]
      rfl
    rw [run_bind_ok hrun]
    refine htoken t rest rfl hsound _ ⟨hl, hlast, hpushback, rfl⟩ ?_
    rw [← hp, ← products_onLexer (s := s) (l := l) (narrowed_of_subset_scanned hevents)]
    simp [AnalysisState.products, Event.narrowed?]
  | nil =>
    cases herror : x.error with
    | none =>
      rw [herror] at hstream
      obtain ⟨l, hnext, hl⟩ := Lexer.next_of_end hstream
      have hrun : consume s =
          .ok none { s with lexer := l, log := s.log ++ ([] : List Event) } := by
        rw [Analyzer.consume, run_bind_ok (onLexer_run hnext)]
        rfl
      rw [run_bind_ok hrun]
      refine hend rfl herror hsound _ ⟨by rw [herror]; exact hl, hat.lastSpan⟩ ?_
      rw [products_onLexer (fun _ h => absurd h List.not_mem_nil), hp]
    | some e =>
      rw [herror] at hstream
      obtain ⟨l, hnext⟩ := Lexer.next_of_error hstream
      have hrun : consume s = .error (.rejected (.lexical e) (some e.span) s.inside.reverse)
          { s with lexer := l, log := s.log ++ ([] : List Event) } := by
        rw [Analyzer.consume, run_bind_ok (onLexer_run hnext)]
        rfl
      rw [run_bind_error hrun]
      exact ⟨_, _, hsound, .lexical rfl herror⟩

theorem Holding.retract_bind {f : Unit → Analyzer β}
    (h : Reads x ⟨form, due, seen, t :: rest⟩ p (f ()) Q) :
    Holding x form due seen t rest p (retract >>= f) Q := by
  intro hsound s hpast hp
  obtain ⟨l, hretract, hl⟩ := Lexer.retract_of_last hpast.stream hpast.last hpast.pushback
  have hrun : retract s = .ok () { s with lexer := l, log := s.log ++ [Event.retracted t] } := by
    rw [Analyzer.retract, run_bind_ok (onLexer_run hretract)]
    rfl
  rw [run_bind_ok hrun]
  refine h hsound _ ⟨hl, fun hnil => absurd hnil (List.cons_ne_nil t rest)⟩ ?_
  rw [products_onLexer, hp]
  intro event hevent
  rw [List.mem_singleton.mp hevent]
  rfl

/-! ## 2. Steps of the parser -/

theorem operatorCount_singleton {a : Terminal} (h : t.terminal? = some a) :
    operatorCount [t] = a.cost := by
  have hkind : t.operates = (a.cost == 1) := by
    cases a with
    | identifier => rw [Token.operates, Token.terminal?_class_iff.1.mp h]; rfl
    | integer => rw [Token.operates, Token.terminal?_class_iff.2.1.mp h]; rfl
    | float => rw [Token.operates, Token.terminal?_class_iff.2.2.mp h]; rfl
    | _ =>
      have hk := congrArg Prod.fst ((Token.terminal?_eq_some_iff rfl).mp h)
      rw [Token.operates, show t.kind = _ from hk]
      rfl
  rw [operatorCount, List.countP_singleton, hkind]
  cases a <;> rfl

/-- A parser moves over a token that is expected and that breaks no rule about names. -/
theorem Sound.shift {a : Terminal} {p' : Products}
    (h : Sound x ⟨.terminal a :: form, due, seen, t :: rest⟩ p) (ht : t.terminal? = some a)
    (hr : ¬ Redeclares seen t) (hu : ¬ UsesUndeclared seen t) (htemps : p'.temps = p.temps)
    (hnames : p'.symbols.map Symbol.name = identifiers (declarationPart (seen ++ [t]))) :
    Sound x ⟨form, due + a.cost, seen ++ [t], rest⟩ p' where
  tokens := by
    rw [h.tokens]
    simp
  moves := by
    refine h.moves.trans ?_
    rw [List.map_cons, ht]
    exact .shift .refl
  wellNamed := wellNamed_concat.mpr ⟨h.wellNamed, hr, hu⟩
  names := hnames
  drawn := by
    have hdrawn : p.temps + due = operatorCount seen := h.drawn
    have hcount := operatorCount_singleton ht
    show p'.temps + (due + a.cost) = operatorCount (seen ++ [t])
    rw [htemps, ← Nat.add_assoc, hdrawn, ← hcount, operatorCount, operatorCount, operatorCount,
      List.countP_append]

theorem Past.at (h : Past x t rest s) :
    At x ⟨form, due, seen ++ [t], rest⟩ s :=
  ⟨h.stream, fun _ => by rw [h.lastSpan]; simp⟩

/-- The token is the terminal that is expected, and not an identifier. -/
theorem Holding.shift {a : Terminal} {m : Analyzer β} (ht : t.terminal? = some a)
    (ha : a ≠ .identifier) (h : Reads x ⟨form, due + a.cost, seen ++ [t], rest⟩ p m Q) :
    Holding x (.terminal a :: form) due seen t rest p m Q := by
  intro hsound s hpast hp
  have hk : t.kind ≠ .identifier := by
    intro hk
    rw [Token.terminal?_class_iff.1.mpr hk] at ht
    exact ha (Option.some.inj ht).symm
  refine h (hsound.shift ht (fun hr => hk hr.1) (fun hu => hk hu.1) rfl ?_) s hpast.at hp
  rw [identifiers_declarationPart_of_ne hk]
  exact hsound.names

/-- The token is the name of the program. -/
theorem Holding.heading {m : Analyzer β} (hk : t.kind = .identifier) (hlen : seen.length < 2)
    (h : Reads x ⟨form, due, seen ++ [t], rest⟩ p m Q) :
    Holding x (.terminal .identifier :: form) due seen t rest p m Q := by
  intro hsound s hpast hp
  have hnil : seen.drop 2 = [] := List.drop_eq_nil_of_le (Nat.le_of_lt hlen)
  refine h (hsound.shift (Token.terminal?_class_iff.1.mpr hk) ?_ ?_ rfl ?_) s hpast.at hp
  · rintro ⟨-, -, hmem⟩
    rw [declarationPart, hnil] at hmem
    exact absurd hmem List.not_mem_nil
  · rintro ⟨-, hne, -⟩
    exact hne (by rw [commandPart, hnil]; rfl)
  · rw [(parts_heading hlen).1]
    exact hsound.names

/-- A semicolon, told by its kind. -/
theorem Holding.semicolon {m : Analyzer β} (hk : t.kind = .semicolon)
    (h : t.terminal? = some .semicolon → Holding x form due seen t rest p m Q) :
    Holding x form due seen t rest p m Q := by
  intro hsound
  refine h ?_ hsound
  have hmem : t ∈ x.tokens := by
    rw [hsound.tokens]
    simp
  rw [Token.terminal?_eq_some_iff rfl, Token.lexeme_eq hk, x.semicolons t hmem hk]

theorem Holding.unexpected {expected : String} (hs : table.Stuck form (some t.terminal?)) :
    Holding x form due seen t rest p
      (Analyzer.unexpected (Cause.unexpected expected) (some t)) Q := by
  intro hsound s _ _
  exact ⟨_, _, hsound, .unexpected rfl hs⟩

theorem Reads.ended {expected : String} (herror : x.error = none)
    (hs : table.Stuck form none) :
    Reads x ⟨form, due, seen, []⟩ p (Analyzer.unexpected (Cause.unexpected expected) none) Q := by
  intro hsound s hat _
  have hlast : s.lastSpan = seen.getLast?.map Token.span := hat.lastSpan rfl
  rw [Analyzer.unexpected, run_bind_ok get_run, hlast]
  have hcomplaint : Complaint x ⟨form, due, seen, []⟩ (.rejected (.unexpected expected none)
      (seen.getLast?.map fun t => ⟨t.span.offset + t.span.len, 0⟩) s.inside.reverse) :=
    .ended rfl herror hs
  rcases List.eq_nil_or_concat seen with rfl | ⟨ts, t, rfl⟩
  · exact ⟨_, _, hsound, hcomplaint⟩
  · rw [List.concat_eq_append, List.getLast?_concat] at *
    show Ending x Q ((trust t.span.after >>= _) s)
    rw [Span.after, addWords]
    by_cases hfit : t.span.offset + t.span.len < wordLimit
    · rw [if_pos hfit]
      exact ⟨_, _, hsound, hcomplaint⟩
    · rw [if_neg hfit]
      refine ⟨_, _, hsound, .misplaced ?_ (Nat.le_of_not_lt hfit) rfl herror hs⟩
      rw [hsound.tokens]
      simp

/-- A token that has to be one lexeme, whose terminal is the one that is expected. -/
theorem Reads.expect_bind {a : Terminal} {kind : TokenKind} {text : String} {f : Unit → Analyzer β}
    (ha : a.lexeme? = some (kind, text)) (hcost : a.cost = 0)
    (h : ∀ t rest, coming = t :: rest → t.lexeme = (kind, text) →
      Reads x ⟨form, due, seen ++ [t], rest⟩ p (f ()) Q) :
    Reads x ⟨.terminal a :: form, due, seen, coming⟩ p (expect kind text >>= f) Q := by
  have hne : a ≠ .identifier := by
    rintro rfl
    cases ha
  rw [Analyzer.expect, bind_assoc]
  refine .consume_bind (fun _ herror => ?_) (fun t rest hcoming => ?_)
  · exact .bind (.ended herror (fun h => by cases h))
  · show Holding x _ due seen t rest p ((if t.is kind text then Pure.pure () else
      Analyzer.unexpected (Cause.expectedOneOf [text]) (some t)) >>= f) Q
    by_cases ht : t.is kind text = true
    · have hterminal := (Token.is_iff ha).mp ht
      rw [if_pos ht, pure_bind]
      refine .shift hterminal hne ?_
      rw [hcost]
      exact h t rest hcoming ((Token.terminal?_eq_some_iff ha).mp hterminal)
    · rw [if_neg ht]
      refine .bind (.unexpected fun hstuck => ht ?_)
      exact (Token.is_iff ha).mpr (Option.some.inj hstuck)

/-- The same at the end of a rule. -/
theorem Reads.expect {a : Terminal} {kind : TokenKind} {text : String}
    {Q : Point → Unit → Products → Prop} (ha : a.lexeme? = some (kind, text)) (hcost : a.cost = 0)
    (h : ∀ t rest, coming = t :: rest → t.lexeme = (kind, text) →
      Q ⟨form, due, seen ++ [t], rest⟩ () p) :
    Reads x ⟨.terminal a :: form, due, seen, coming⟩ p (expect kind text) Q := by
  rw [← bind_pure (Analyzer.expect kind text)]
  exact .expect_bind ha hcost fun t rest hcoming ht => .pure (h t rest hcoming ht)

/-- A token that has to be an identifier, and is held until its name has been looked at. -/
theorem Reads.expectIdentifier_bind {f : Token → Analyzer β}
    (h : ∀ t rest, coming = t :: rest → t.kind = .identifier →
      Holding x (.terminal .identifier :: form) due seen t rest p (f t) Q) :
    Reads x ⟨.terminal .identifier :: form, due, seen, coming⟩ p (expectIdentifier >>= f) Q := by
  rw [Analyzer.expectIdentifier, bind_assoc]
  refine .consume_bind (fun _ herror => ?_) (fun t rest hcoming => ?_)
  · exact .bind (.ended herror (fun h => by cases h))
  · show Holding x _ due seen t rest p ((if t.kind = .identifier then Pure.pure t else
      Analyzer.unexpected (Cause.unexpected "an identifier") (some t)) >>= f) Q
    by_cases hk : t.kind = .identifier
    · rw [if_pos hk, pure_bind]
      exact h t rest hcoming hk
    · rw [if_neg hk]
      refine .bind (.unexpected fun hstuck => hk ?_)
      exact Token.terminal?_class_iff.1.mp (Option.some.inj hstuck)

/-- A token that is taken if it has a property. -/
theorem Reads.consumeIf_bind {property : Token → Bool} {f : Bool → Analyzer β}
    (htake : ∀ t rest, coming = t :: rest → property t = true →
      Holding x form due seen t rest p (f true) Q)
    (hleave : (∀ t ∈ coming.head?, property t = false) →
      Reads x ⟨form, due, seen, coming⟩ p (f false) Q) :
    Reads x ⟨form, due, seen, coming⟩ p (consumeIf property >>= f) Q := by
  rw [Analyzer.consumeIf, bind_assoc]
  refine .peek_bind ?_
  cases coming with
  | nil => exact hleave (fun t ht => by cases ht)
  | cons t rest =>
    show Reads x _ p ((if property t = true then (do return (← consume).isSome) else
      Pure.pure false) >>= f) Q
    cases ht : property t with
    | true =>
      rw [if_pos rfl, bind_assoc]
      refine .consume_bind (fun hnil => by cases hnil) (fun u rest' hcoming => ?_)
      obtain ⟨rfl, rfl⟩ := List.cons.inj hcoming
      exact htake t rest rfl ht
    | false => exact hleave (fun u hu => by cases hu; exact ht)

/-! ## 3. Steps that read no token -/

/-- A change of the state that leaves the lexer alone. -/
theorem Reads.modify_bind {g : AnalysisState → AnalysisState} {f : Unit → Analyzer β}
    {p' : Products} (h : Reads x π p' (f ()) Q) (hsound : Sound x π p → Sound x π p')
    (hlexer : ∀ s, (g s).lexer = s.lexer ∧ (g s).lastSpan = s.lastSpan)
    (hproducts : ∀ s, s.products = p → (g s).products = p') :
    Reads x π p (modify g >>= f) Q := by
  intro hπ s hat hp
  rw [run_bind_ok (show (modify g : Analyzer Unit) s = .ok () (g s) from rfl)]
  refine h (hsound hπ) (g s) ⟨?_, ?_⟩ (hproducts s hp)
  · rw [(hlexer s).1]
    exact hat.stream
  · rw [(hlexer s).2]
    exact hat.lastSpan

theorem Reads.report_bind {event : Event} {f : Unit → Analyzer β} (hevent : event.narrowed? = none)
    (h : Reads x π p (f ()) Q) : Reads x π p (report event >>= f) Q := by
  refine .modify_bind h id (fun _ => ⟨rfl, rfl⟩) (fun s hp => ?_)
  rw [← hp]
  simp [AnalysisState.products, hevent]

theorem Reads.narrowing_bind {name : String} {f : Unit → Analyzer β}
    (h : Reads x π { p with narrowed := p.narrowed ++ [name] } (f ()) Q) :
    Reads x π p (report (.narrowing name) >>= f) Q := by
  refine .modify_bind h (fun hs => ⟨hs.tokens, hs.moves, hs.wellNamed, hs.names, hs.drawn⟩)
    (fun _ => ⟨rfl, rfl⟩) (fun s hp => ?_)
  rw [← hp]
  simp [AnalysisState.products, Event.narrowed?]

/-- What has been made, with the code taken from a generator. -/
def Products.withGenerator (p : Products) (g : Generator) : Products :=
  { p with quads := g.builder.quads.toList, pending := g.builder.pending, temps := g.temps }

/-- A call on the generator. -/
theorem Reads.onGenerator_bind {call : Generator → Step Generator α} {f : α → Analyzer β}
    (due' : Nat)
    (h : Sound x ⟨form, due, seen, coming⟩ p → ∀ g, p.withGenerator g = p →
      (∀ event ∈ (call g).events, event.narrowed? = none) ∧
      Sound x ⟨form, due', seen, coming⟩ (p.withGenerator (call g).next) ∧
      Reads x ⟨form, due', seen, coming⟩ (p.withGenerator (call g).next) (f (call g).answer) Q) :
    Reads x ⟨form, due, seen, coming⟩ p (onGenerator call >>= f) Q := by
  rintro hsound s hat rfl
  obtain ⟨hevents, hsound', hreads⟩ := h hsound s.generator rfl
  rw [run_bind_ok (show onGenerator call s = .ok (call s.generator).answer
    { s with generator := (call s.generator).next, log := s.log ++ (call s.generator).events } from
    rfl)]
  refine hreads hsound' _ ⟨hat.stream, hat.lastSpan⟩ ?_
  have hlog : (call s.generator).events.filterMap Event.narrowed? = [] :=
    List.filterMap_eq_nil_iff.mpr hevents
  simp [AnalysisState.products, Products.withGenerator, hlog]

theorem Reads.emit_bind {quad : Quad} {f : Nat → Analyzer β}
    (h : ∀ i, Reads x ⟨form, due, seen, coming⟩ (p.emit quad) (f i) Q) :
    Reads x ⟨form, due, seen, coming⟩ p (onGenerator (·.emit quad) >>= f) Q := by
  refine .onGenerator_bind due fun hs g hg => ?_
  have hp : p.withGenerator (g.emit quad).next = p.emit quad := by
    rw [← hg]
    simp [Products.withGenerator, Products.emit, Products.extend, Generator.emit,
      Generator.onBuilder, Builder.emit]
  rw [hp]
  refine ⟨?_, ⟨hs.tokens, hs.moves, hs.wellNamed, hs.names, hs.drawn⟩, h _⟩
  intro event hevent
  rw [List.mem_singleton.mp hevent]
  rfl

theorem Sound.congr {p' : Products} (h : Sound x π p) (hsymbols : p'.symbols = p.symbols)
    (htemps : p'.temps = p.temps) : Sound x π p' where
  tokens := h.tokens
  moves := h.moves
  wellNamed := h.wellNamed
  names := by rw [hsymbols]; exact h.names
  drawn := by rw [htemps]; exact h.drawn

/-- An operation that was read is computed. If there is no temporary left for it, the source has too
many operations. -/
theorem Reads.compute_bind {quad : Operand → Quad} {answer : Nat → α} {f : α → Analyzer β}
    (h : Reads x ⟨form, due, seen, coming⟩ (p.compute quad) (f (answer (p.temps + 1))) Q) :
    Reads x ⟨form, due + 1, seen, coming⟩ p
      (onGenerator (·.compute quad answer) >>= fun r => trust r >>= f) Q := by
  by_cases hlimit : p.temps + 1 < Generator.tempLimit
  · refine .onGenerator_bind due fun hs g hg => ?_
    have htemps : g.temps = p.temps := congrArg Products.temps hg
    have hquads : g.builder.quads.toList = p.quads := congrArg Products.quads hg
    have hpending : g.builder.pending = p.pending := congrArg Products.pending hg
    have hcall : g.compute quad answer = ⟨.ok (answer (p.temps + 1)),
        ⟨{ g.builder with quads := g.builder.quads.push (quad (.temp (p.temps + 1))) },
          p.temps + 1⟩,
        [.emitted g.builder.nextIndex (quad (.temp (p.temps + 1)))]⟩ := by
      rw [Generator.compute, htemps]
      exact if_pos hlimit
    have hp : p.withGenerator (g.compute quad answer).next = p.compute quad := by
      rw [hcall]
      simp [Products.withGenerator, Products.compute, Products.extend, hquads, hpending]
    rw [hp, hcall]
    refine ⟨fun event hevent => by rw [List.mem_singleton.mp hevent]; rfl, ?_, ?_⟩
    · refine ⟨hs.tokens, hs.moves, hs.wellNamed, hs.names, ?_⟩
      have hdrawn : p.temps + (due + 1) = operatorCount seen := hs.drawn
      show p.temps + 1 + due = operatorCount seen
      omega
    · exact h
  · refine .onGenerator_bind (due + 1) fun hs g hg => ?_
    have htemps : g.temps = p.temps := congrArg Products.temps hg
    have hcall : g.compute quad answer = ⟨.error .additionOverflow, g, []⟩ := by
      rw [Generator.compute, htemps]
      exact if_neg hlimit
    rw [hcall]
    refine ⟨fun event hevent => absurd hevent List.not_mem_nil, ?_, ?_⟩
    · rw [hg]
      exact hs
    · intro hsound s _ _
      refine ⟨_, _, hsound, .overflow ?_⟩
      have hdrawn : p.temps + (due + 1) = operatorCount seen := hs.drawn
      show _ ≤ operatorCount seen
      omega

/-- A jump that waits for its target. -/
theorem Reads.emitJump_bind {op : Operator} {condition : Option Operand}
    {f : PendingJump → Analyzer β} (hop : op.isJump = true)
    (h : ∀ hole, Reads x ⟨form, due, seen, coming⟩ (p.wait op condition hole)
      (f ⟨p.quads.length, hole⟩) Q) :
    Reads x ⟨form, due, seen, coming⟩ p
      (onGenerator (fun g => g.onBuilder (·.emitJump op condition)) >>= fun r => trust r >>= f)
      Q := by
  refine .onGenerator_bind due fun hs g hg => ?_
  have hquads : g.builder.quads.toList = p.quads := congrArg Products.quads hg
  have hcall : g.onBuilder (·.emitJump op condition) =
      ⟨.ok ⟨p.quads.length, g.builder.nextHole⟩,
        ⟨⟨g.builder.quads.push (.jump op condition (.pending g.builder.nextHole)),
          g.builder.pending + 1, g.builder.nextHole + 1⟩, g.temps⟩,
        [.emitted g.builder.nextIndex (.jump op condition (.pending g.builder.nextHole))]⟩ := by
    simp [Generator.onBuilder, Builder.emitJump, Builder.emit, Builder.nextIndex, hop, ← hquads]
  have hp : p.withGenerator (g.onBuilder (·.emitJump op condition)).next =
      p.wait op condition g.builder.nextHole := by
    rw [hcall, ← hg]
    simp [Products.withGenerator, Products.wait, Products.emit, Products.extend]
  rw [hp, hcall]
  refine ⟨fun event hevent => by rw [List.mem_singleton.mp hevent]; rfl, ?_, h _⟩
  exact hs.congr rfl rfl

/-- A jump to a known instruction. -/
theorem Reads.jumpTo_bind {target : Nat} {f : Nat → Analyzer β}
    (h : ∀ i,
      Reads x ⟨form, due, seen, coming⟩ (p.emit (.jump .jump none (.line target))) (f i) Q) :
    Reads x ⟨form, due, seen, coming⟩ p
      (onGenerator (·.jumpTo target) >>= fun r => trust r >>= f) Q := by
  refine .onGenerator_bind due fun hs g hg => ?_
  have hp : p.withGenerator (g.jumpTo target).next = p.emit (.jump .jump none (.line target)) := by
    rw [← hg]
    simp [Products.withGenerator, Products.emit, Products.extend, Generator.jumpTo,
      Generator.onBuilder, Builder.emitJumpTo, Builder.emit, Operator.isJump]
  rw [hp]
  refine ⟨fun event hevent => by rw [List.mem_singleton.mp hevent]; rfl, ?_, h _⟩
  exact hs.congr rfl rfl

/-- Patching a jump that waits changes its target and nothing else. -/
theorem patch_waiting {b : Builder} {jump : PendingJump} {op : Operator}
    {condition : Option Operand} {before after : List Quad} {pending : Nat}
    (hquads : b.quads.toList = before ++ .jump op condition (.pending jump.hole) :: after)
    (hindex : jump.index = before.length) (hpending : b.pending = pending + 1) :
    b.patch jump b.nextIndex =
      ⟨.ok (), { b with
        quads := (before ++ .jump op condition (.line b.nextIndex) :: after).toArray, pending },
        [.patched jump.index b.nextIndex]⟩ := by
  have hget : b.quads[jump.index]? = some (.jump op condition (.pending jump.hole)) := by
    rw [← Array.getElem?_toList, hquads, hindex]
    simp
  have hset : ∀ quad, b.quads.setIfInBounds jump.index quad =
      (before ++ quad :: after).toArray := by
    intro quad
    refine Array.ext' ?_
    rw [Array.toList_setIfInBounds, hquads, hindex]
    simp
  unfold Builder.patch Builder.nextIndex
  rw [if_neg (Nat.lt_irrefl _), hget]
  simp only [Quad.jump, if_true, hset, hpending]

/-- A jump that waits among the instructions gets the next index as its target. -/
theorem Reads.patchHere_bind {jump : PendingJump} {op : Operator} {condition : Option Operand}
    {before after : List Quad} {pending : Nat} {f : Unit → Analyzer β}
    (hquads : p.quads = before ++ .jump op condition (.pending jump.hole) :: after)
    (hindex : jump.index = before.length) (hpending : p.pending = pending + 1)
    (h : Reads x ⟨form, due, seen, coming⟩
      { p with quads := before ++ .jump op condition (.line p.quads.length) :: after, pending }
      (f ()) Q) :
    Reads x ⟨form, due, seen, coming⟩ p (Analyzer.patchHere jump >>= f) Q := by
  rw [Analyzer.patchHere, bind_assoc]
  refine .onGenerator_bind due fun hs g hg => ?_
  have hg' : g.builder.quads.toList = p.quads := congrArg Products.quads hg
  have hsize : g.builder.nextIndex = p.quads.length := by
    rw [← hg']
    rfl
  have hcall : g.patchHere jump = ⟨.ok (),
      ⟨{ g.builder with
        quads := (before ++ .jump op condition (.line p.quads.length) :: after).toArray, pending },
        g.temps⟩,
      [.patching jump.index p.quads.length, .patched jump.index p.quads.length]⟩ := by
    have hpatch := patch_waiting (hg'.trans hquads) hindex
      ((congrArg Products.pending hg).trans hpending)
    rw [hsize] at hpatch
    simp only [Generator.patchHere, Generator.onBuilder, Generator.nextIndex, hsize, hpatch]
  have hp : p.withGenerator (g.patchHere jump).next =
      { p with
        quads := before ++ .jump op condition (.line p.quads.length) :: after, pending } := by
    rw [hcall]
    simp [Products.withGenerator, show g.temps = p.temps from congrArg Products.temps hg]
  rw [hp, hcall]
  refine ⟨fun event hevent => ?_, hs.congr rfl rfl, h⟩
  rcases List.mem_pair.mp hevent with rfl | rfl <;> rfl

theorem Reads.get_bind {f : AnalysisState → Analyzer β}
    (h : ∀ s, s.products = p → Reads x π p (f s) Q) : Reads x π p (get >>= f) Q := by
  intro hsound s hat hp
  rw [run_bind_ok get_run]
  exact h s hp hsound s hat hp

/-! ## 4. Names -/

theorem declared_eq_lookup {s : AnalysisState} (name : String) :
    s.products.declared name = s.symbols.lookup? name := by
  simp [Products.declared, typeIn, SymbolTable.lookup?, AnalysisState.products]

theorem mem_names_iff {name : String} :
    name ∈ p.symbols.map Symbol.name ↔ (p.declared name).isSome = true := by
  simp only [Products.declared, typeIn, Option.isSome_map, List.find?_isSome, List.mem_map,
    decide_eq_true_eq]

theorem reference_run_of_some {type : VarType} (h : s.symbols.lookup? t.text = some type) :
    reference t s = .ok type s := by
  rw [reference, run_bind_ok get_run, h]
  rfl

theorem reference_run_of_none (h : s.symbols.lookup? t.text = none) :
    reference t s = .error (.rejected (.declaration (.undeclared t.text)) (some t.span)
      s.inside.reverse) s := by
  rw [reference, run_bind_ok get_run, h]
  rfl

/-- The names that have been declared are in the symbol table. -/
theorem Sound.mem_identifiers_iff (h : Sound x π s.products) (name : String) :
    name ∈ identifiers (declarationPart π.seen) ↔ (s.symbols.lookup? name).isSome = true := by
  rw [← declared_eq_lookup, ← mem_names_iff, h.names]

/-- An identifier in the command part. -/
theorem Holding.reference_bind {f : VarType → Analyzer β} (hk : t.kind = .identifier)
    (hc : commandPart seen ≠ [])
    (h : ∀ type, p.declared t.text = some type →
      Reads x ⟨form, due, seen ++ [t], rest⟩ p (f type) Q) :
    Holding x (.terminal .identifier :: form) due seen t rest p (reference t >>= f) Q := by
  rintro hsound s hpast rfl
  have hnames := hsound.mem_identifiers_iff t.text
  cases hd : s.symbols.lookup? t.text with
  | some type =>
    rw [hd] at hnames
    rw [run_bind_ok (reference_run_of_some hd)]
    have hterminal : t.terminal? = some .identifier := Token.terminal?_class_iff.1.mpr hk
    refine h type ((declared_eq_lookup _).trans hd) (hsound.shift hterminal (fun hr => hc hr.2.1)
      (fun hu => hu.2.2 (hnames.mpr rfl)) rfl ?_) s hpast.at rfl
    rw [(parts_commands hc).1]
    exact hsound.names
  | none =>
    rw [hd] at hnames
    rw [run_bind_error (reference_run_of_none hd)]
    refine ⟨_, _, hsound, .undeclared rfl rfl ⟨hk, hc, fun hmem => ?_⟩⟩
    cases hnames.mp hmem

theorem onSymbols_run {call : SymbolTable → Step SymbolTable α} {a : α} {table' : SymbolTable}
    {events : List Event} (h : call s.symbols = ⟨a, table', events⟩) :
    onSymbols call s = .ok a { s with symbols := table', log := s.log ++ events } := by
  show EStateM.Result.ok (call s.symbols).answer
    { s with symbols := (call s.symbols).next, log := s.log ++ (call s.symbols).events } = _
  rw [h]

theorem declare_run_of_some {type other : VarType} (h : s.symbols.lookup? t.text = some other) :
    declare t type s = .error (.rejected (.declaration (.alreadyDeclared t.text)) (some t.span)
      s.inside.reverse) { s with log := s.log ++ ([] : List Event) } := by
  have hcall : s.symbols.declare t.text type =
      ⟨.error (.alreadyDeclared t.text), s.symbols, []⟩ := by
    rw [SymbolTable.declare, h]
  rw [declare, run_bind_ok (onSymbols_run hcall)]
  rfl

/-- One more variable, set up with the zero of its type. -/
def Products.declare (p : Products) (symbol : Symbol) : Products :=
  { p.emit symbol.alloc with symbols := p.symbols ++ [symbol] }

theorem declare_run_of_none (type : VarType) (h : s.symbols.lookup? t.text = none) :
    ∃ s', declare t type s = .ok () s' ∧ s'.lexer = s.lexer ∧ s'.lastSpan = s.lastSpan ∧
      s'.products = s.products.declare ⟨t.text, type⟩ := by
  have hcall : s.symbols.declare t.text type =
      ⟨.ok (), ⟨s.symbols.symbols.push ⟨t.text, type⟩⟩, [.declared t.text type]⟩ := by
    rw [SymbolTable.declare, h]
  refine ⟨{ s with
      symbols := ⟨s.symbols.symbols.push ⟨t.text, type⟩⟩
      generator := (s.generator.allocate t.text type).next
      log := s.log ++ [Event.declared t.text type] ++ (s.generator.allocate t.text type).events },
    by rw [declare, run_bind_ok (onSymbols_run hcall)]; rfl, rfl, rfl, ?_⟩
  simp [AnalysisState.products, Products.declare, Products.emit, Products.extend,
    Generator.allocate, Generator.emit, Generator.onBuilder, Builder.emit, Symbol.alloc,
    Event.narrowed?]

/-- An identifier in the declaration part. -/
theorem Holding.declare_bind {type : VarType} {f : Unit → Analyzer β} (hk : t.kind = .identifier)
    (hlen : 2 ≤ seen.length) (hc : commandPart seen = [])
    (h : Reads x ⟨form, due, seen ++ [t], rest⟩ (p.declare ⟨t.text, type⟩) (f ()) Q) :
    Holding x (.terminal .identifier :: form) due seen t rest p (declare t type >>= f) Q := by
  rintro hsound s hpast rfl
  have hnames := hsound.mem_identifiers_iff t.text
  cases hd : s.symbols.lookup? t.text with
  | some other =>
    rw [hd] at hnames
    rw [run_bind_error (declare_run_of_some hd)]
    exact ⟨_, _, hsound, .redeclared rfl rfl ⟨hk, hc, hnames.mpr rfl⟩⟩
  | none =>
    rw [hd] at hnames
    obtain ⟨s', hrun, hlexer, hspan, hproducts⟩ := declare_run_of_none type hd
    rw [run_bind_ok hrun]
    have hterminal : t.terminal? = some .identifier := Token.terminal?_class_iff.1.mpr hk
    have hpast' : Past x t rest s' :=
      ⟨hlexer ▸ hpast.stream, hlexer ▸ hpast.last, hlexer ▸ hpast.pushback, hspan ▸ hpast.lastSpan⟩
    refine h (hsound.shift hterminal (fun hr => ?_) (fun hu => hu.2.1 hc) rfl ?_) s' hpast'.at
      hproducts
    · cases hnames.mp hr.2.2
    · have hbegin := not_isKeyword_of_identifier hk .beginWord
      have hprevious : s.products.symbols.map Symbol.name = identifiers (declarationPart seen) :=
        hsound.names
      rw [(parts_declarations hlen hc).1, hbegin, identifiers_append, ← hprevious]
      simp [Products.declare, identifiers_singleton hk]

/-! ## 5. Categories -/

/-- A category is entered and left for the log only. -/
theorem Reads.within {c : NonTerminal} {m : Analyzer β} (h : Reads x π p m Q) :
    Reads x π p (Analyzer.within c m) Q := by
  refine .report_bind rfl (.modify_bind (.bind ?_) id (fun _ => ⟨rfl, rfl⟩) (fun _ hp => hp))
  refine h.mono fun π' b p' hb => ?_
  exact .report_bind rfl (.modify_bind (.pure hb) id (fun _ => ⟨rfl, rfl⟩) (fun _ hp => hp))

/-- From the tokens `coming`, those of a tree of `A` have been read, with the outcome `E`. -/
def Recognized (A : NonTerminal)
    (form : List (ContextFreeRule.Item Terminal NonTerminal)) (due : Nat)
    (seen coming : List Token) (E : Tree A → α → Products → Prop) (π : Point) (a : α)
    (p : Products) : Prop :=
  ∃ (u rest : List Token) (tree : Tree A), coming = u ++ rest ∧ π = ⟨form, due, seen ++ u, rest⟩ ∧
    u.map Token.lexeme = tree.lexemes ∧ E tree a p

/-- A category that is recognized on the way. -/
theorem Reads.call {A : NonTerminal} {m : Analyzer α} {E : Tree A → α → Products → Prop}
    {f : α → Analyzer β}
    (hm : Reads x ⟨.nonterminal A :: form, due, seen, coming⟩ p m
      (Recognized A form due seen coming E))
    (h : ∀ (u rest : List Token) (tree : Tree A) a p', coming = u ++ rest →
      u.map Token.lexeme = tree.lexemes → E tree a p' →
      Reads x ⟨form, due, seen ++ u, rest⟩ p' (f a) Q) :
    Reads x ⟨.nonterminal A :: form, due, seen, coming⟩ p (Analyzer.within A m >>= f) Q := by
  refine .bind (.within (hm.mono ?_))
  rintro _ a p' ⟨u, rest, tree, hcoming, rfl, hlexemes, hE⟩
  exact h u rest tree a p' hcoming hlexemes hE

end

end ThreeAddress
