import ThreeAddress.Proofs.Analysis.Steps
import ThreeAddress.Proofs.Grammar.Halfway
import ThreeAddress.Proofs.Program.Generator

/-!
# The path of a descent

An analysis recognizes each category by a call, and it says in its log when it enters and leaves
one. This module says what it means for a part of it to descend in the way that the grammar asks
for. The judgment is

    Descends A done coming error m

Started in the category `A`, behind the part `done` of a right side, with the tokens `coming` before
it, the part `m` reads the rest of a right side of `A` that begins with `done`. If it is rejected on
the way, it is halfway through that rest, and the categories that it leaves open are the path there
(`Course`). Nothing is said about what is accepted and what is not: any token may be refused. So the
judgment is easier to have than `Reads`, and it holds for every recursion bound.

Between taking a token and deciding what it is, a part of an analysis holds a token that does not
count as read. The judgment `Grasps` is for such parts.
-/

namespace ThreeAddress

open Grammar ContextFreeRule Analyzer

/-! ## 1. Logs -/

/-- The categories that are open after an event, innermost first. Only the innermost one can be
left. -/
def Event.mark (opened : List NonTerminal) : Event → Option (List NonTerminal)
  | .starting category => some (category :: opened)
  | .finished category => if opened.head? = some category then some opened.tail else none
  | _ => some opened

/-- The categories that a log enters and does not leave, outermost first. There is no answer if the
log is not properly nested. -/
def unfinished (log : List Event) : Option (List NonTerminal) :=
  (log.foldlM Event.mark []).map List.reverse

/-- The event neither enters nor leaves a category. -/
def Event.Quiet (e : Event) : Prop :=
  ∀ opened, e.mark opened = some opened

theorem foldlM_mark_of_quiet {events : List Event} (h : ∀ e ∈ events, e.Quiet)
    (opened : List NonTerminal) : events.foldlM Event.mark opened = some opened := by
  induction events with
  | nil => rfl
  | cons e events ih =>
    obtain ⟨he, hevents⟩ := List.forall_mem_cons.mp h
    rw [List.foldlM_cons, he opened]
    exact ih hevents

/-- The log says which categories are open. -/
def Nested (s : AnalysisState) : Prop :=
  s.log.toList.foldlM Event.mark [] = some s.inside

theorem Nested.append {s s' : AnalysisState} {events : List Event} (h : Nested s)
    (hlog : s'.log.toList = s.log.toList ++ events)
    (hevents : events.foldlM Event.mark s.inside = some s'.inside) : Nested s' := by
  unfold Nested at h ⊢
  rw [hlog, List.foldlM_append, h]
  exact hevents

/-- What a run keeps in order as long as it goes on: the log, and the number of temporaries. -/
structure Orderly (s : AnalysisState) : Prop where
  nested : Nested s
  temps : s.generator.temps < Generator.tempLimit

theorem Orderly.quiet {s s' : AnalysisState} {events : List Event} (h : Orderly s)
    (hlog : s'.log.toList = s.log.toList ++ events) (hquiet : ∀ e ∈ events, e.Quiet)
    (hinside : s'.inside = s.inside) (htemps : s'.generator.temps < Generator.tempLimit) :
    Orderly s' := by
  refine ⟨h.nested.append hlog ?_, htemps⟩
  rw [foldlM_mark_of_quiet hquiet, hinside]

/-! ## 2. Tokens and forms -/

/-- The tokens are a word of the form. -/
def Spells (form : List (Item Terminal NonTerminal)) (ts : List Token) : Prop :=
  ∃ word, Yields rules form word ∧ ts.map Token.terminal? = word.map some

/-- The tokens lead halfway through the form, down the path. -/
def Leads (form : List (Item Terminal NonTerminal)) (path : List NonTerminal)
    (ts : List Token) : Prop :=
  ∃ word, Halfway rules form path word ∧ ts.map Token.terminal? = word.map some

section

variable {form : List (Item Terminal NonTerminal)} {path : List NonTerminal} {t : Token}
  {us ts : List Token} {a : Terminal} {A : NonTerminal}

theorem Spells.nil : Spells [] [] :=
  ⟨[], .nil, rfl⟩

theorem Spells.terminal (ht : t.terminal? = some a) (h : Spells form ts) :
    Spells (.terminal a :: form) (t :: ts) := by
  obtain ⟨word, hword, hts⟩ := h
  exact ⟨a :: word, .terminal hword, by rw [List.map_cons, List.map_cons, ht, hts]⟩

theorem Spells.nonterminal (hus : Spells [.nonterminal A] us) (h : Spells form ts) :
    Spells (.nonterminal A :: form) (us ++ ts) := by
  obtain ⟨u, hu, hmap⟩ := hus
  obtain ⟨v, hv, hmap'⟩ := h
  exact ⟨u ++ v, hu.append hv, by rw [List.map_append, List.map_append, hmap, hmap']⟩

theorem Spells.rule {out : List (Item Terminal NonTerminal)} (mem : ⟨A, out⟩ ∈ rules)
    (h : Spells out ts) : Spells [.nonterminal A] ts := by
  obtain ⟨word, hword, hts⟩ := h
  exact ⟨word, .rule mem (by rwa [List.append_nil]), hts⟩

theorem Leads.front (h : form ≠ []) : Leads form [] [] := by
  obtain ⟨X, form, rfl⟩ := List.exists_cons_of_ne_nil h
  exact ⟨[], .front, rfl⟩

theorem Leads.terminal (ht : t.terminal? = some a) (h : Leads form path ts) :
    Leads (.terminal a :: form) path (t :: ts) := by
  obtain ⟨word, hword, hts⟩ := h
  exact ⟨a :: word, .terminal hword, by rw [List.map_cons, List.map_cons, ht, hts]⟩

theorem Leads.past (hus : Spells [.nonterminal A] us) (h : Leads form path ts) :
    Leads (.nonterminal A :: form) path (us ++ ts) := by
  obtain ⟨u, hu, hmap⟩ := hus
  obtain ⟨v, hv, hmap'⟩ := h
  exact ⟨u ++ v, .past hu hv, by rw [List.map_append, List.map_append, hmap, hmap']⟩

theorem Leads.inside {out : List (Item Terminal NonTerminal)} (mem : ⟨A, out⟩ ∈ rules)
    (h : Leads out path ts) : Leads (.nonterminal A :: form) (A :: path) ts := by
  obtain ⟨word, hword, hts⟩ := h
  exact ⟨word, .inside mem hword, hts⟩

end

/-- The form is what is left of a right side of `A` that begins with `done`. -/
def Remains (A : NonTerminal) (done form : List (Item Terminal NonTerminal)) : Prop :=
  ⟨A, done ++ form⟩ ∈ rules

/-- A right side of `A` begins with `done`. -/
def Begins (A : NonTerminal) (done : List (Item Terminal NonTerminal)) : Prop :=
  ∃ r ∈ rules, r.input = A ∧ done <+: r.output

/-- A right side of `A` begins with `done` and goes on. -/
def Expects (A : NonTerminal) (done : List (Item Terminal NonTerminal)) : Prop :=
  ∃ r ∈ rules, r.input = A ∧ done <+: r.output ∧ done ≠ r.output

instance (A : NonTerminal) (done : List (Item Terminal NonTerminal)) : Decidable (Begins A done) :=
  inferInstanceAs (Decidable (∃ r ∈ rules, r.input = A ∧ done <+: r.output))

instance (A : NonTerminal) (done : List (Item Terminal NonTerminal)) : Decidable (Expects A done) :=
  inferInstanceAs (Decidable (∃ r ∈ rules, r.input = A ∧ done <+: r.output ∧ done ≠ r.output))

theorem Begins.exists_remains {A : NonTerminal} {done : List (Item Terminal NonTerminal)}
    (h : Begins A done) : ∃ form, Remains A done form := by
  obtain ⟨r, mem, rfl, form, hform⟩ := h
  exact ⟨form, show ⟨r.input, done ++ form⟩ ∈ rules by rw [hform]; exact mem⟩

theorem Expects.exists_remains {A : NonTerminal} {done : List (Item Terminal NonTerminal)}
    (h : Expects A done) : ∃ form, Remains A done form ∧ form ≠ [] := by
  obtain ⟨r, mem, rfl, ⟨form, hform⟩, hne⟩ := h
  refine ⟨form, show ⟨r.input, done ++ form⟩ ∈ rules by rw [hform]; exact mem, ?_⟩
  rintro rfl
  exact hne (by rw [← hform, List.append_nil])

/-! ## 3. The judgments -/

/-- What a rejection is about, given the tokens before which the analysis stands. -/
inductive Blames (coming : List Token) (error : Option LexError) : Cause → Option Span → Prop
  | lexical {e : LexError} (ends : coming = []) (fails : error = some e) :
      Blames coming error (.lexical e) (some e.span)
  | token {t : Token} {rest : List Token} {expected : String} (next : coming = t :: rest) :
      Blames coming error (.unexpected expected (some t)) (some t.span)
  | ended {expected : String} {span : Option Span} (ends : coming = []) :
      Blames coming error (.unexpected expected none) span
  | name {t : Token} {rest : List Token} {e : DeclarationError} (next : coming = t :: rest) :
      Blames coming error (.declaration e) (some t.span)
  | internal {e : InternalError} {span : Option Span} : Blames coming error (.internal e) span

/-- How a run that reads one of some forms may end. If it is rejected, the path is what it leaves
open. A failed check says nothing, except that the log is still in order. -/
inductive Course {α : Type} (P : List (Item Terminal NonTerminal) → Prop) (coming : List Token)
    (error : Option LexError) (s : AnalysisState) : EStateM.Result Stop AnalysisState α → Prop
  | done {a : α} {s' : AnalysisState} {form : List (Item Terminal NonTerminal)}
      {us rest : List Token}
      (orderly : Orderly s') (inside : s'.inside = s.inside)
      (stream : s'.lexer.stream = ⟨rest, error⟩)
      (tokens : coming = us ++ rest) (reads : P form) (spells : Spells form us) :
      Course P coming error s (.ok a s')
  | rejected {cause : Cause} {span : Option Span} {s' : AnalysisState}
      {form : List (Item Terminal NonTerminal)} {path : List NonTerminal} {us rest : List Token}
      (nested : Nested s') (inside : s'.inside = path.reverse ++ s.inside)
      (tokens : coming = us ++ rest)
      (reads : P form) (leads : Leads form path us) (blames : Blames rest error cause span) :
      Course P coming error s (.error (.rejected cause span s'.inside.reverse) s')
  | fault {fault : Fault} {s' : AnalysisState} (nested : Nested s') :
      Course P coming error s (.error (.fault fault) s')

/-- Semicolons are told by their kind, so the lexer answers for their text. -/
def PlainSemicolons (ts : List Token) : Prop :=
  ∀ t ∈ ts, t.kind = .semicolon → t.text = ";"

section

variable {α β : Type}

/-- **Started in `A` behind `done`, the part `m` reads the rest of a right side.** -/
def Descends (A : NonTerminal) (done : List (Item Terminal NonTerminal)) (coming : List Token)
    (error : Option LexError) (m : Analyzer α) : Prop :=
  PlainSemicolons coming → ∀ s, Orderly s → s.lexer.stream = ⟨coming, error⟩ →
    Course (Remains A done) coming error s (m s)

/-- The same for a part that holds the next token. -/
def Grasps (A : NonTerminal) (done : List (Item Terminal NonTerminal)) (t : Token)
    (rest : List Token) (error : Option LexError) (m : Analyzer α) : Prop :=
  PlainSemicolons (t :: rest) → ∀ s, Orderly s → s.lexer.stream = ⟨rest, error⟩ →
    s.lexer.last = some t → s.lexer.pushback = none →
    Course (Remains A done) (t :: rest) error s (m s)

variable {A B : NonTerminal} {done : List (Item Terminal NonTerminal)}
  {coming rest : List Token} {t : Token}
  {error : Option LexError} {s s' : AnalysisState} {P : List (Item Terminal NonTerminal) → Prop}

theorem PlainSemicolons.of_append {us : List Token} (h : PlainSemicolons (us ++ rest)) :
    PlainSemicolons rest :=
  fun t ht => h t (List.mem_append_right us ht)

/-- Only the open categories of the state at the start matter. -/
theorem Course.congr {r : EStateM.Result Stop AnalysisState α} (h : Course P coming error s r)
    (hinside : s.inside = s'.inside) : Course P coming error s' r := by
  cases h with
  | done orderly inside stream tokens reads spells =>
    exact .done orderly (inside.trans hinside) stream tokens reads spells
  | rejected nested inside tokens reads leads blames =>
    exact .rejected nested (by rw [inside, hinside]) tokens reads leads blames
  | fault nested => exact .fault nested

/-! ## 4. Ways to stop -/

theorem Course.reject {cause : Cause} {span : Option Span} (hs : Nested s) (h : Expects A done)
    (hblames : Blames coming error cause span) :
    Course (Remains A done) coming error s ((Analyzer.reject cause span : Analyzer β) s) := by
  obtain ⟨form, hform, hne⟩ := h.exists_remains
  exact .rejected hs (List.nil_append _).symm (List.nil_append coming).symm hform
    (.front hne) hblames

theorem Descends.faulty {f : Fault} :
    Descends A done coming error (Analyzer.faulty f : Analyzer β) :=
  fun _ _ hs _ => .fault hs.nested

theorem Descends.trust_bind {answer : Except Fault α} {f : α → Analyzer β}
    (h : ∀ a, Descends A done coming error (f a)) :
    Descends A done coming error (trust answer >>= f) := by
  intro hplain s hs hstream
  cases answer with
  | ok a => exact h a hplain s hs hstream
  | error x => exact .fault hs.nested

theorem Grasps.unexpected {expected : String} (h : Expects A done) :
    Grasps A done t rest error
      (Analyzer.unexpected (Cause.unexpected expected) (some t) : Analyzer β) :=
  fun _ _ hs _ _ _ => .reject hs.nested h (.token rfl)

theorem Descends.ended_bind {expected : String} {f : α → Analyzer β} (h : Expects A done) :
    Descends A done [] error (Analyzer.unexpected (Cause.unexpected expected) none >>= f) := by
  intro _ s hs _
  rw [Analyzer.unexpected, bind_assoc, run_bind_ok get_run]
  -- the place behind the last token may be too far off to be named
  cases s.lastSpan with
  | none => exact .reject hs.nested h (.ended rfl)
  | some span =>
    show Course _ _ _ s (((trust span.after >>= _) >>= f) s)
    cases span.after with
    | ok after => exact .reject hs.nested h (.ended rfl)
    | error x => exact .fault hs.nested

theorem Descends.ended {expected : String} (h : Expects A done) :
    Descends A done [] error
      (Analyzer.unexpected (Cause.unexpected expected) none : Analyzer β) := by
  rw [← bind_pure (Analyzer.unexpected (Cause.unexpected expected) none : Analyzer β)]
  exact .ended_bind h

/-! ## 5. Steps that read nothing -/

theorem Descends.pure {b : β} (h : ⟨A, done⟩ ∈ rules) :
    Descends A done coming error (Pure.pure b) := by
  intro _ s hs hstream
  exact .done hs rfl hstream (List.nil_append coming).symm
    (show ⟨A, done ++ []⟩ ∈ rules by rwa [List.append_nil]) .nil

theorem Descends.get_bind {f : AnalysisState → Analyzer β}
    (h : ∀ s, Descends A done coming error (f s)) :
    Descends A done coming error (get >>= f) :=
  fun hplain s hs hstream => h s hplain s hs hstream

theorem Descends.report_bind {e : Event} {f : Unit → Analyzer β} (he : e.Quiet)
    (h : Descends A done coming error (f ())) : Descends A done coming error (report e >>= f) := by
  intro hplain s hs hstream
  have hs' : Orderly { s with log := s.log.push e } :=
    hs.quiet (Array.toList_push ..) (List.forall_mem_singleton.mpr he) rfl hs.temps
  exact (h hplain _ hs' hstream).congr rfl

/-- What a call on the generator keeps in order. -/
structure Generator.Modest (call : Generator → Step Generator α) : Prop where
  events : ∀ g, ∀ e ∈ (call g).events, e.Quiet
  temps : ∀ g, g.temps < tempLimit → (call g).next.temps < tempLimit

theorem Orderly.onGenerator {call : Generator → Step Generator α} (hs : Orderly s)
    (hcall : Generator.Modest call) :
    Orderly { s with
      generator := (call s.generator).next, log := s.log ++ (call s.generator).events } :=
  hs.quiet Array.toList_appendList (hcall.events _) rfl (hcall.temps _ hs.temps)

theorem Descends.onGenerator_bind {call : Generator → Step Generator α} {f : α → Analyzer β}
    (hcall : Generator.Modest call) (h : ∀ a, Descends A done coming error (f a)) :
    Descends A done coming error (onGenerator call >>= f) :=
  fun hplain _ hs hstream => (h _ hplain _ (hs.onGenerator hcall) hstream).congr rfl

theorem Generator.modest_emit (quad : Quad) : Modest (·.emit quad) where
  events g e he := by
    rw [List.mem_singleton.mp he]
    exact fun _ => rfl
  temps _ h := h

/-- No temporary is drawn beyond the last one. -/
theorem Generator.modest_compute (quad : Operand → Quad) (answer : Nat → α) :
    Modest (·.compute quad answer) where
  events g e he := by
    rcases compute_cases g quad answer with ⟨-, h⟩ | ⟨-, h⟩ <;> rw [h] at he
    · rw [List.mem_singleton.mp he]
      exact fun _ => rfl
    · cases he
  temps g hg := by
    rcases compute_cases g quad answer with ⟨hlimit, h⟩ | ⟨-, h⟩ <;> rw [h]
    · exact hlimit
    · exact hg

theorem Generator.modest_compare (op : Operator) (left right : Value) :
    Modest (·.compare op left right) := by
  cases hop : op.isComparison with
  | true =>
    simp only [compare, hop, if_true]
    exact modest_compute ..
  | false =>
    simp only [compare, hop]
    exact ⟨fun _ _ he => absurd he List.not_mem_nil, fun _ h => h⟩

theorem Generator.modest_emitJump (op : Operator) (condition : Option Operand) :
    Modest fun g => g.onBuilder (·.emitJump op condition) where
  events g e he := by
    unfold onBuilder Builder.emitJump at he
    cases hop : op.isJump with
    | true =>
      simp only [hop, if_true] at he
      rw [List.mem_singleton.mp he]
      exact fun _ => rfl
    | false =>
      simp only [hop] at he
      cases he
  temps _ h := h

theorem Generator.modest_jumpTo (target : Nat) : Modest (·.jumpTo target) where
  events g e he := by
    rw [List.mem_singleton.mp (show e ∈ [Event.emitted _ _] from he)]
    exact fun _ => rfl
  temps _ h := h

theorem Generator.modest_patchHere (jump : PendingJump) : Modest (·.patchHere jump) where
  events g e he := by
    rcases List.mem_cons.mp (show e ∈ Event.patching _ _ ::
      (g.builder.patch jump g.nextIndex).events from he) with rfl | he
    · exact fun _ => rfl
    · rcases g.builder.patch_cases jump g.nextIndex with
        ⟨_, h⟩ | ⟨_, _, _, -, -, ⟨-, h⟩ | ⟨_, -, h⟩⟩ <;> rw [h] at he
      · cases he
      · cases he
      · rw [List.mem_singleton.mp he]
        exact fun _ => rfl
  temps _ h := h

theorem Descends.patchHere_bind {jump : PendingJump} {f : Unit → Analyzer β}
    (hexpects : Expects A done)
    (h : Descends A done coming error (f ())) :
    Descends A done coming error (patchHere jump >>= f) := by
  rw [Analyzer.patchHere, bind_assoc]
  refine .onGenerator_bind (Generator.modest_patchHere jump) fun answer => ?_
  rcases answer with (e | x) | a
  · intro _ s hs _
    exact .reject hs.nested hexpects .internal
  · exact .faulty
  · exact h

/-! ## 6. Steps of the lexer -/

theorem Event.quiet_of_subset_scanned {events : List Event} (h : events ⊆ [.scanned t]) :
    ∀ e ∈ events, e.Quiet := by
  intro e he
  rw [List.mem_singleton.mp (h he)]
  exact fun _ => rfl

theorem Orderly.onLexer {l : Lexer} {events : List Event} (hs : Orderly s)
    (hevents : ∀ e ∈ events, e.Quiet) : Orderly { s with lexer := l, log := s.log ++ events } :=
  hs.quiet Array.toList_appendList hevents rfl hs.temps

theorem Orderly.silent {l : Lexer} (hs : Orderly s) :
    Orderly { s with lexer := l, log := s.log ++ ([] : List Event) } :=
  hs.onLexer fun _ he => absurd he List.not_mem_nil

theorem Orderly.consumed {l : Lexer} {events : List Event} (hs : Orderly s)
    (h : events ⊆ [.scanned t]) :
    Orderly { s with
      lexer := l, log := (s.log ++ events).push (.consumed t), lastSpan := some t.span } :=
  (hs.onLexer (l := l) (Event.quiet_of_subset_scanned h)).quiet (Array.toList_push ..)
    (List.forall_mem_singleton.mpr fun _ => rfl) rfl hs.temps

theorem Descends.peek_bind {f : Option Token → Analyzer β} (hexpects : Expects A done)
    (h : Descends A done coming error (f coming.head?)) :
    Descends A done coming error (peek >>= f) := by
  intro hplain s hs hstream
  rw [Analyzer.peek, bind_assoc]
  cases coming with
  | cons t rest =>
    obtain ⟨l, events, hpeek, hl, hevents⟩ := Lexer.peek_of_cons hstream
    rw [run_bind_ok (onLexer_run hpeek)]
    exact (h hplain _ (hs.onLexer (Event.quiet_of_subset_scanned hevents)) hl).congr rfl
  | nil =>
    cases error with
    | none =>
      obtain ⟨l, hpeek, hl⟩ := Lexer.peek_of_end hstream
      rw [run_bind_ok (onLexer_run hpeek)]
      exact (h hplain _ hs.silent hl).congr rfl
    | some e =>
      obtain ⟨l, hpeek⟩ := Lexer.peek_of_error hstream
      rw [run_bind_ok (onLexer_run hpeek)]
      exact (Course.reject hs.silent.nested hexpects (.lexical rfl rfl)).congr rfl

theorem Descends.consume_bind {f : Option Token → Analyzer β} (hexpects : Expects A done)
    (hend : coming = [] → Descends A done [] error (f none))
    (htoken : ∀ t rest, coming = t :: rest → Grasps A done t rest error (f (some t))) :
    Descends A done coming error (consume >>= f) := by
  intro hplain s hs hstream
  rw [Analyzer.consume, bind_assoc]
  cases coming with
  | cons t rest =>
    obtain ⟨l, events, hnext, hl, hlast, hpushback, hevents⟩ := Lexer.next_of_cons hstream
    rw [run_bind_ok (onLexer_run hnext)]
    exact (htoken t rest rfl hplain _ (hs.consumed hevents) hl hlast hpushback).congr rfl
  | nil =>
    cases error with
    | none =>
      obtain ⟨l, hnext, hl⟩ := Lexer.next_of_end hstream
      rw [run_bind_ok (onLexer_run hnext)]
      exact (hend rfl hplain _ hs.silent hl).congr rfl
    | some e =>
      obtain ⟨l, hnext⟩ := Lexer.next_of_error hstream
      rw [run_bind_ok (onLexer_run hnext)]
      exact (Course.reject hs.silent.nested hexpects (.lexical rfl rfl)).congr rfl

theorem Grasps.retract_bind {f : Unit → Analyzer β} (h : Descends A done (t :: rest) error (f ())) :
    Grasps A done t rest error (retract >>= f) := by
  intro hplain s hs hstream hlast hpushback
  obtain ⟨l, hretract, hl⟩ := Lexer.retract_of_last hstream hlast hpushback
  rw [Analyzer.retract, bind_assoc, run_bind_ok (onLexer_run hretract)]
  exact (h hplain _ (hs.onLexer (List.forall_mem_singleton.mpr fun _ => rfl)) hl).congr rfl

/-! ## 7. Moving on -/

section

variable {r : EStateM.Result Stop AnalysisState β}

theorem Remains.cons {X : Item Terminal NonTerminal} {form : List (Item Terminal NonTerminal)}
    (h : Remains A (done ++ [X]) form) : Remains A done (X :: form) := by
  rwa [Remains, List.append_assoc] at h

theorem Course.terminal {a : Terminal} (ht : t.terminal? = some a)
    (h : Course (Remains A (done ++ [.terminal a])) rest error s r) :
    Course (Remains A done) (t :: rest) error s r := by
  cases h with
  | done orderly inside stream tokens reads spells =>
    exact .done orderly inside stream (congrArg (t :: ·) tokens) reads.cons (spells.terminal ht)
  | rejected nested inside tokens reads leads blames =>
    exact .rejected nested inside (congrArg (t :: ·) tokens) reads.cons (leads.terminal ht) blames
  | fault nested => exact .fault nested

theorem Course.past {us : List Token} (hus : Spells [.nonterminal B] us)
    (h : Course (Remains A (done ++ [.nonterminal B])) rest error s r) :
    Course (Remains A done) (us ++ rest) error s r := by
  cases h with
  | done orderly inside stream tokens reads spells =>
    exact .done orderly inside stream (by rw [tokens, List.append_assoc]) reads.cons
      (hus.nonterminal spells)
  | rejected nested inside tokens reads leads blames =>
    exact .rejected nested inside (by rw [tokens, List.append_assoc]) reads.cons
      (leads.past hus) blames
  | fault nested => exact .fault nested

end

/-- The token is a terminal with which a right side goes on. -/
theorem Grasps.shift {a : Terminal} {m : Analyzer β} (ht : t.terminal? = some a)
    (h : Descends A (done ++ [.terminal a]) rest error m) : Grasps A done t rest error m :=
  fun hplain s hs hstream _ _ =>
    (h (fun u hu => hplain u (List.mem_cons_of_mem t hu)) s hs hstream).terminal ht

theorem Grasps.semicolon {m : Analyzer β} (hk : t.kind = .semicolon)
    (h : Descends A (done ++ [.terminal .semicolon]) rest error m) :
    Grasps A done t rest error m := by
  intro hplain
  refine Grasps.shift ?_ h hplain
  rw [Token.terminal?_eq_some_iff rfl, Token.lexeme_eq hk, hplain t List.mem_cons_self hk]

theorem Grasps.identifier {m : Analyzer β} (hk : t.kind = .identifier)
    (h : Descends A (done ++ [.terminal .identifier]) rest error m) :
    Grasps A done t rest error m :=
  .shift (Token.terminal?_class_iff.1.mpr hk) h

/-- A token that has to be one lexeme. -/
theorem Descends.expect_bind {a : Terminal} {kind : TokenKind} {text : String}
    {f : Unit → Analyzer β} (ha : a.lexeme? = some (kind, text)) (hexpects : Expects A done)
    (h : ∀ t rest, coming = t :: rest → Descends A (done ++ [.terminal a]) rest error (f ())) :
    Descends A done coming error (expect kind text >>= f) := by
  rw [Analyzer.expect, bind_assoc]
  refine .consume_bind hexpects (fun _ => .ended_bind hexpects) (fun t rest hcoming => ?_)
  show Grasps A done t rest error ((if t.is kind text then Pure.pure () else
    Analyzer.unexpected (Cause.expectedOneOf [text]) (some t)) >>= f)
  by_cases ht : t.is kind text = true
  · rw [if_pos ht, pure_bind]
    exact .shift ((Token.is_iff ha).mp ht) (h t rest hcoming)
  · rw [if_neg ht]
    exact .unexpected hexpects

/-- The same at the end of a rule. -/
theorem Descends.expect {a : Terminal} {kind : TokenKind} {text : String}
    (ha : a.lexeme? = some (kind, text)) (hlast : ⟨A, done ++ [.terminal a]⟩ ∈ rules) :
    Descends A done coming error (expect kind text) := by
  rw [← bind_pure (Analyzer.expect kind text)]
  refine .expect_bind ha ⟨_, hlast, rfl, List.prefix_append .., ?_⟩ fun _ _ _ => .pure hlast
  simp

/-- A token that has to be an identifier, and is held until its name has been looked at. -/
theorem Descends.expectIdentifier_bind {f : Token → Analyzer β} (hexpects : Expects A done)
    (h : ∀ t rest, coming = t :: rest → t.kind = .identifier → Grasps A done t rest error (f t)) :
    Descends A done coming error (expectIdentifier >>= f) := by
  rw [Analyzer.expectIdentifier, bind_assoc]
  refine .consume_bind hexpects (fun _ => .ended_bind hexpects) (fun t rest hcoming => ?_)
  show Grasps A done t rest error ((if t.kind = .identifier then Pure.pure t else
    Analyzer.unexpected (Cause.unexpected "an identifier") (some t)) >>= f)
  by_cases hk : t.kind = .identifier
  · rw [if_pos hk, pure_bind]
    exact h t rest hcoming hk
  · rw [if_neg hk]
    exact .unexpected hexpects

/-- A token that is taken if it has a property. -/
theorem Descends.consumeIf_bind {property : Token → Bool} {f : Bool → Analyzer β}
    (hexpects : Expects A done)
    (htake : ∀ t rest, coming = t :: rest → property t = true → Grasps A done t rest error (f true))
    (hleave : Descends A done coming error (f false)) :
    Descends A done coming error (consumeIf property >>= f) := by
  rw [Analyzer.consumeIf, bind_assoc]
  refine .peek_bind hexpects ?_
  cases coming with
  | nil => exact hleave
  | cons t rest =>
    show Descends A done _ error ((if property t = true then (do return (← consume).isSome) else
      Pure.pure false) >>= f)
    cases ht : property t with
    | true =>
      rw [if_pos rfl, bind_assoc]
      refine .consume_bind hexpects (fun hnil => by cases hnil) (fun u rest' hcoming => ?_)
      obtain ⟨rfl, rfl⟩ := List.cons.inj hcoming
      exact htake t rest rfl ht
    | false => exact hleave

/-! ## 8. Names -/

theorem Grasps.reference_bind {f : VarType → Analyzer β} (hexpects : Expects A done)
    (h : ∀ type, Grasps A done t rest error (f type)) :
    Grasps A done t rest error (reference t >>= f) := by
  intro hplain s hs hstream hlast hpushback
  cases hd : s.symbols.lookup? t.text with
  | some type =>
    rw [run_bind_ok (reference_run_of_some hd)]
    exact h type hplain s hs hstream hlast hpushback
  | none =>
    rw [run_bind_error (reference_run_of_none hd)]
    exact .reject hs.nested hexpects (.name rfl)

theorem Grasps.declare_bind {type : VarType} {f : Unit → Analyzer β} (hexpects : Expects A done)
    (h : Grasps A done t rest error (f ())) :
    Grasps A done t rest error (declare t type >>= f) := by
  intro hplain s hs hstream hlast hpushback
  cases hd : s.symbols.lookup? t.text with
  | some other =>
    rw [run_bind_error (declare_run_of_some hd)]
    exact (Course.reject hs.silent.nested hexpects (.name rfl)).congr rfl
  | none =>
    have hcall : s.symbols.declare t.text type =
        ⟨.ok (), ⟨s.symbols.symbols.push ⟨t.text, type⟩⟩, [.declared t.text type]⟩ := by
      rw [SymbolTable.declare, hd]
    rw [declare, bind_assoc, run_bind_ok (onSymbols_run hcall)]
    have hs' : Orderly { s with
        symbols := ⟨s.symbols.symbols.push ⟨t.text, type⟩⟩,
        log := s.log ++ [Event.declared t.text type] } :=
      hs.quiet Array.toList_appendList (List.forall_mem_singleton.mpr fun _ => rfl) rfl hs.temps
    exact (h hplain _ (hs'.onGenerator (Generator.modest_emit _)) hstream hlast hpushback).congr rfl

/-! ## 9. Categories -/

/-- **What recognizing a category can do.** It is open while it is read, so a rejection there lies
one category deeper. -/
theorem Descends.within_cases {m : Analyzer α} (hm : Descends B [] coming error m)
    (hplain : PlainSemicolons coming) (hs : Orderly s)
    (hstream : s.lexer.stream = ⟨coming, error⟩) :
    (∃ a s' us rest, within B m s = .ok a s' ∧ Orderly s' ∧ s'.inside = s.inside ∧
      s'.lexer.stream = ⟨rest, error⟩ ∧ coming = us ++ rest ∧ Spells [.nonterminal B] us) ∨
    (∃ cause span s' out path us rest,
      within B m s = .error (.rejected cause span s'.inside.reverse) s' ∧ Nested s' ∧
      s'.inside = (B :: path).reverse ++ s.inside ∧ coming = us ++ rest ∧ ⟨B, out⟩ ∈ rules ∧
      Leads out path us ∧ Blames rest error cause span) ∨
    ∃ x s', within B m s = .error (.fault x) s' ∧ Nested s' := by
  -- the category is on the path of `m`, which begins where it has been entered
  let entered : AnalysisState := { s with log := s.log.push (.starting B), inside := B :: s.inside }
  have hentered : Orderly entered :=
    ⟨hs.nested.append (Array.toList_push ..) rfl, hs.temps⟩
  have hcourse := hm hplain entered hentered hstream
  have hrun : within B m s = (m >>= fun a => do
      report (.finished B)
      modify fun s => { s with inside := s.inside.tail }
      return a) entered := rfl
  rw [hrun]
  cases hms : m entered with
  | ok a s' =>
    rw [hms] at hcourse
    cases hcourse with
    | @done _ _ form us rest orderly inside stream tokens reads spells =>
      have hleft : Orderly
          { s' with log := s'.log.push (.finished B), inside := s'.inside.tail } := by
        refine ⟨orderly.nested.append (Array.toList_push ..) ?_, orderly.temps⟩
        simp [inside, entered, Event.mark]
      exact .inl ⟨a, _, us, rest, run_bind_ok hms, hleft, by simp [inside, entered], stream, tokens,
        spells.rule reads⟩
  | error stop s' =>
    rw [hms] at hcourse
    cases hcourse with
    | @rejected cause span _ form path us rest nested inside tokens reads leads blames =>
      exact .inr (.inl ⟨cause, span, s', form, path, us, rest, run_bind_error hms, nested,
        by simp [inside, entered], tokens, reads, leads, blames⟩)
    | fault nested => exact .inr (.inr ⟨_, s', run_bind_error hms, nested⟩)

/-- A category that is recognized on the way. -/
theorem Descends.call {m : Analyzer α} {f : α → Analyzer β}
    (hbegins : Begins A (done ++ [.nonterminal B])) (hm : Descends B [] coming error m)
    (h : ∀ a us rest,
      coming = us ++ rest → Descends A (done ++ [.nonterminal B]) rest error (f a)) :
    Descends A done coming error (within B m >>= f) := by
  intro hplain s hs hstream
  rcases hm.within_cases hplain hs hstream with
    ⟨a, s', us, rest, hrun, hs', hinside, hstream', tokens, spells⟩ |
    ⟨cause, span, s', out, path, us, rest, hrun, nested, hinside, tokens, mem, leads, blames⟩ |
    ⟨x, s', hrun, nested⟩
  · rw [run_bind_ok hrun]
    have hrest := h a us rest tokens (tokens ▸ hplain).of_append s' hs' hstream'
    rw [tokens]
    exact (hrest.past spells).congr hinside
  · rw [run_bind_error hrun]
    obtain ⟨form, hform⟩ := hbegins.exists_remains
    exact .rejected nested hinside tokens hform.cons (leads.inside mem) blames
  · rw [run_bind_error hrun]
    exact .fault nested

/-- The same at the end of a rule. -/
theorem Descends.call_last {m : Analyzer β} (hlast : ⟨A, done ++ [.nonterminal B]⟩ ∈ rules)
    (hm : Descends B [] coming error m) : Descends A done coming error (within B m) := by
  rw [← bind_pure (within B m)]
  exact .call ⟨_, hlast, rfl, List.prefix_rfl⟩ hm fun _ _ _ _ => .pure hlast

end

end ThreeAddress
