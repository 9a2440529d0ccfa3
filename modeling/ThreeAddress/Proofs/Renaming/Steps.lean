import ThreeAddress.Proofs.Renaming.Lockstep

/-!
# Steps in lockstep

For each step that the rules of an analysis are put together from, the two analyses take it alike.
The lexers are at the same place of the token cursor, so they hand out tokens at the same position
(`Counterparts.next`, `Counterparts.peek`), and what the rules ask about a token does not depend on
its place, nor on its text if it is an identifier. The text of an identifier goes to the symbol
table and to the generator only.
-/

namespace ThreeAddress

open Analyzer

variable {r : String → String} {x y : Stream} {t u : Token} {α β : Type} {R : α → β → Prop}

/-! ## 1. Stopping, entering a category and emitting code -/

namespace Lockstep

theorem report {event event' : Event} :
    Lockstep r x y Eq (Analyzer.report event) (Analyzer.report event') :=
  .change fun _ _ hs => hs.withLog _ _

theorem reject {cause cause' : Cause} {span span' : Option Span} (hcause : SameCause r cause cause')
    (hplace : SamePlace x y span span') :
    Lockstep r x y R (Analyzer.reject cause span) (Analyzer.reject cause' span') := by
  unfold Analyzer.reject
  refine .get_bind fun s s' hs => ?_
  intro s₁ s₁' _
  rw [hs.inside]
  exact .error (.rejected _ hcause hplace)

theorem rejectHere {cause cause' : Cause} (hcause : SameCause r cause cause') :
    Lockstep r x y R (Analyzer.rejectHere cause) (Analyzer.rejectHere cause') := by
  unfold Analyzer.rejectHere
  refine .get_bind fun s s' hs => ?_
  rcases hs.lastSpan with ⟨hspan, hspan'⟩ | ⟨t, u, htwins, hspan, hspan'⟩
  · rw [hspan, hspan']
    exact .reject hcause .nowhere
  · rw [hspan, hspan']
    exact .reject hcause (.token htwins)

theorem faulty (f : Fault) : Lockstep r x y R (Analyzer.faulty f) (Analyzer.faulty f) :=
  fun _ _ hs => .error (.fault f hs)

theorem trust {e : Except Fault α} {e' : Except Fault β} (h : SameAnswer R e e') :
    Lockstep r x y R (Analyzer.trust e) (Analyzer.trust e') := by
  cases h with
  | ok h => exact .pure h
  | error f => exact .faulty f

theorem within {category : NonTerminal} {m : Analyzer α} {m' : Analyzer β}
    (h : Lockstep r x y R m m') :
    Lockstep r x y R (Analyzer.within category m) (Analyzer.within category m') := by
  unfold Analyzer.within
  refine .bind .report fun _ _ _ => .bind (.change fun s s' hs => ?_) fun _ _ _ => ?_
  · exact ⟨hs.lexer, hs.symbols, hs.names, hs.generator,
      congrArg (category :: ·) hs.inside, hs.lastSpan⟩
  · refine .bind h fun a b hab => .bind .report fun _ _ _ => ?_
    refine .bind (.change fun s s' hs => ?_) fun _ _ _ => .pure hab
    exact ⟨hs.lexer, hs.symbols, hs.names, hs.generator, congrArg List.tail hs.inside, hs.lastSpan⟩

theorem onGenerator {call : Generator → Step Generator α} {call' : Generator → Step Generator β}
    (hcall : ∀ g, Step.Renamed (Generator.rename r) R (call g) (call' (g.rename r))) :
    Lockstep r x y R (Analyzer.onGenerator call) (Analyzer.onGenerator call') := by
  intro s s' hs
  have hrenamed := hcall s.generator
  rw [← hs.generator] at hrenamed
  exact .ok hrenamed.answer
    ⟨hs.lexer, hs.symbols, hs.names, hrenamed.next, hs.inside, hs.lastSpan⟩

/-- A jump is emitted, and what follows gets the same handle. -/
theorem emit_bind {γ δ : Type} {S : γ → δ → Prop}
    {call call' : Generator → Step Generator (Except Fault α)}
    {f : α → Analyzer γ} {f' : α → Analyzer δ}
    (hcall : ∀ g, Step.Renamed (Generator.rename r) Eq (call g) (call' (g.rename r)))
    (hf : ∀ a, Lockstep r x y S (f a) (f' a)) :
    Lockstep r x y S (do f (← Analyzer.trust (← Analyzer.onGenerator call)))
      (do f' (← Analyzer.trust (← Analyzer.onGenerator call'))) := by
  refine .bind (.onGenerator hcall) fun answer answer' hanswer => ?_
  subst hanswer
  refine .bind (.trust (.refl answer)) fun a b hab => ?_
  subst hab
  exact hf a

theorem patchHere (jump : PendingJump) :
    Lockstep r x y Eq (Analyzer.patchHere jump) (Analyzer.patchHere jump) := by
  unfold Analyzer.patchHere
  refine .bind (.onGenerator fun g => g.patchHere_renamed jump) fun answer answer' hanswer => ?_
  subst hanswer
  cases answer with
  | ok => exact .pure rfl
  | error failure =>
    cases failure with
    | refused e => exact .rejectHere (.internal _)
    | fault f => exact .faulty f

end Lockstep

/-- Every token ends where a machine word can say. -/
def Stream.Fits (x : Stream) : Prop :=
  ∀ t ∈ x.tokens, t.span.offset + t.span.len < wordLimit

/-- The streams of two sources that differ in layout and names only. -/
structure Counterparts (r : String → String) (x y : Stream) : Prop extends x.Renames r y where
  fits : x.Fits
  fits' : y.Fits

theorem Stream.Fits.after_span (h : x.Fits) (ht : t ∈ x.tokens) :
    t.span.after = .ok ⟨t.span.offset + t.span.len, 0⟩ := by
  unfold Span.after addWords
  rw [if_pos (h t ht)]
  rfl

namespace Counterparts

variable (h : Counterparts r x y)

include h

theorem unexpected (expected : String) {found found' : Option Token}
    (hfound : Option.Rel (x.Twins y) found found') :
    Lockstep r x y R (Analyzer.unexpected (.unexpected expected) found)
      (Analyzer.unexpected (.unexpected expected) found') := by
  cases hfound with
  | some htwins => exact .reject (.unexpected expected (.some (h.lexeme_eq htwins))) (.token htwins)
  | none =>
    unfold Analyzer.unexpected
    refine .get_bind fun s s' hs => ?_
    rcases hs.lastSpan with ⟨hspan, hspan'⟩ | ⟨t, u, htwins, hspan, hspan'⟩
    · rw [hspan, hspan']
      exact .reject (.unexpected expected .none) .nowhere
    · obtain ⟨k, ht, hu⟩ := htwins
      rw [hspan, hspan']
      dsimp only
      rw [h.fits.after_span (List.mem_of_getElem? ht), h.fits'.after_span (List.mem_of_getElem? hu)]
      exact .reject (.unexpected expected .none) (.after ⟨k, ht, hu⟩)

end Counterparts

/-! ## 2. Tokens -/

/-- The same reply of two lexers to a call for a token. -/
inductive SameReply (x y : Stream) :
    Step Lexer (Except LexError (Option Token)) → Step Lexer (Except LexError (Option Token)) → Prop
  | error {e e' : LexError} {l l' : Lexer} {events events' : List Event} (he : x.error = some e)
      (he' : y.error = some e') : SameReply x y ⟨.error e, l, events⟩ ⟨.error e', l', events'⟩
  | ok {found found' : Option Token} {l l' : Lexer} {events events' : List Event} {k : TokenCursor}
      (hfound : Option.Rel (x.Twins y) found found') (hl : l.Tracks x k) (hl' : l'.Tracks y k) :
      SameReply x y ⟨.ok found, l, events⟩ ⟨.ok found', l', events'⟩

namespace Lexer

variable {l : Lexer} {k : TokenCursor}

theorem Tracks.stream_of_none (h : l.Tracks x k) (hend : x.tokens[k.index]? = none) :
    l.stream = ⟨[], x.error⟩ := by
  rw [h.stream, List.drop_eq_nil_of_le (List.getElem?_eq_none_iff.mp hend)]

/-- Nothing goes wrong as long as there is a token, or the source ends. -/
theorem Tracks.agrees_of_end (h : l.Tracks x k)
    (hend : x.tokens[k.index]? = none → x.error = none) :
    Agrees x l k .next ∧ Agrees x l k .peek := by
  have hgood : (∃ found, l.next.answer = .ok found) ∧ ∃ found, l.peek.answer = .ok found := by
    cases hdrop : x.tokens.drop k.index with
    | nil =>
      have hnone : x.tokens[k.index]? = none :=
        List.getElem?_eq_none (List.drop_eq_nil_iff.mp hdrop)
      have hstream := h.stream_of_none hnone
      rw [hend hnone] at hstream
      obtain ⟨_, hnext, -⟩ := next_of_end hstream
      obtain ⟨_, hpeek, -⟩ := peek_of_end hstream
      exact ⟨⟨_, congrArg Step.answer hnext⟩, _, congrArg Step.answer hpeek⟩
    | cons t rest =>
      have hstream := h.stream
      rw [hdrop] at hstream
      obtain ⟨_, _, hnext, -⟩ := next_of_cons hstream
      obtain ⟨_, _, hpeek, -⟩ := peek_of_cons hstream
      exact ⟨⟨_, congrArg Step.answer hnext⟩, _, congrArg Step.answer hpeek⟩
  obtain ⟨⟨found, hnext⟩, found', hpeek⟩ := hgood
  refine ⟨h.next fun e hanswer => ?_, h.peek fun e hanswer => ?_⟩
  · rw [answer, hnext] at hanswer
    cases hanswer
  · rw [answer, hpeek] at hanswer
    cases hanswer

theorem ok_of_ofResult {result : Except LexError (Option Token)} {found : Option Token}
    (h : LexerAnswer.ofResult result = .token found) : result = .ok found := by
  cases result with
  | ok t =>
    cases h
    rfl
  | error e => cases h

/-- The reply to a call for a token, from a lexer at `k`. -/
structure Replies (x : Stream) (k : TokenCursor) (call : LexerCall)
    (s : Step Lexer (Except LexError (Option Token))) : Prop where
  error : x.tokens[k.index]? = none → ∀ e, x.error = some e → s.answer = .error e
  answer : (x.tokens[k.index]? = none → x.error = none) → s.answer = .ok x.tokens[k.index]?
  tracks : (x.tokens[k.index]? = none → x.error = none) → s.next.Tracks x (k.after x.tokens call)

theorem Tracks.replies_next (h : l.Tracks x k) : Replies x k .next l.next where
  error hend e he := by
    have hstream := h.stream_of_none hend
    rw [he] at hstream
    obtain ⟨_, hnext⟩ := next_of_error hstream
    exact congrArg Step.answer hnext
  answer hend := ok_of_ofResult (h.agrees_of_end hend).1.answer
  tracks hend := (h.agrees_of_end hend).1.tracks

theorem Tracks.replies_peek (h : l.Tracks x k) : Replies x k .peek l.peek where
  error hend e he := by
    have hstream := h.stream_of_none hend
    rw [he] at hstream
    obtain ⟨_, hpeek⟩ := peek_of_error hstream
    exact congrArg Step.answer hpeek
  answer hend := ok_of_ofResult (h.agrees_of_end hend).2.answer
  tracks hend := (h.agrees_of_end hend).2.tracks

end Lexer

namespace Counterparts

variable (h : Counterparts r x y)

include h

/-- Where a lexer comes to depends on the number of tokens only. -/
theorem after_eq (k : TokenCursor) (call : LexerCall) :
    k.after y.tokens call = k.after x.tokens call := by
  unfold TokenCursor.after
  rw [h.length_eq]

/-- Two lexers at the same place reply alike. -/
theorem reply {s s' : Step Lexer (Except LexError (Option Token))} {k : TokenCursor}
    {call : LexerCall}
    (hs : Lexer.Replies x k call s) (hs' : Lexer.Replies y k call s') : SameReply x y s s' := by
  obtain ⟨answer, l, events⟩ := s
  obtain ⟨answer', l', events'⟩ := s'
  have hitems := h.items_twins k.index
  have hsucceed (hx : x.tokens[k.index]? = none → x.error = none)
      (hy : y.tokens[k.index]? = none → y.error = none) :
      SameReply x y ⟨answer, l, events⟩ ⟨answer', l', events'⟩ := by
    have htracks := hs'.tracks hy
    rw [h.after_eq] at htracks
    cases hs.answer hx
    cases hs'.answer hy
    exact .ok hitems (hs.tracks hx) htracks
  rcases h.error_cases with ⟨hx, hy⟩ | ⟨e, e', he, he', -⟩
  · exact hsucceed (fun _ => hx) fun _ => hy
  · cases hfound : x.tokens[k.index]? with
    | some t =>
      cases hfound' : y.tokens[k.index]? with
      | some u =>
        refine hsucceed (fun hnone => ?_) fun hnone => ?_
        · rw [hfound] at hnone
          cases hnone
        · rw [hfound'] at hnone
          cases hnone
      | none =>
        rw [hfound, hfound'] at hitems
        cases hitems
    | none =>
      cases hfound' : y.tokens[k.index]? with
      | some u =>
        rw [hfound, hfound'] at hitems
        cases hitems
      | none =>
        cases hs.error hfound e he
        cases hs'.error hfound' e' he'
        exact .error he he'

/-- A lexical error stops both analyses. -/
theorem lexical {e e' : LexError} (he : x.error = some e) (he' : y.error = some e')
    {s s' s₁ s₁' : AnalysisState} (hinside : s'.inside = s.inside) :
    Agree r x y R (.error (.rejected (.lexical e) (some e.span) s.inside.reverse) s₁)
      (.error (.rejected (.lexical e') (some e'.span) s'.inside.reverse) s₁') := by
  have herror := h.error
  rw [he, he'] at herror
  rw [hinside]
  exact .error (.rejected _ (.lexical (Option.some.inj herror)) (.error he he'))

theorem peek : Lockstep r x y (Option.Rel (x.Twins y)) Analyzer.peek Analyzer.peek := by
  intro s s' hs
  obtain ⟨k, hl, hl'⟩ := hs.lexer
  have hreply := h.reply hl.replies_peek hl'.replies_peek
  generalize hpeek : s.lexer.peek = step at hreply
  generalize hpeek' : s'.lexer.peek = step' at hreply
  unfold Analyzer.peek
  cases hreply with
  | error he he' =>
    rw [run_bind_ok (onLexer_run hpeek), run_bind_ok (onLexer_run hpeek')]
    exact h.lexical he he' hs.inside
  | @ok found found' l l' events events' k hfound hl hl' =>
    rw [run_bind_ok (onLexer_run hpeek), run_bind_ok (onLexer_run hpeek')]
    exact .ok hfound ((hs.withLexer hl hl').withLog _ _)

theorem consume : Lockstep r x y (Option.Rel (x.Twins y)) Analyzer.consume Analyzer.consume := by
  intro s s' hs
  obtain ⟨k, hl, hl'⟩ := hs.lexer
  have hreply := h.reply hl.replies_next hl'.replies_next
  generalize hnext : s.lexer.next = step at hreply
  generalize hnext' : s'.lexer.next = step' at hreply
  unfold Analyzer.consume
  cases hreply with
  | error he he' =>
    rw [run_bind_ok (onLexer_run hnext), run_bind_ok (onLexer_run hnext')]
    exact h.lexical he he' hs.inside
  | @ok found found' l l' events events' k hfound hl hl' =>
    rw [run_bind_ok (onLexer_run hnext), run_bind_ok (onLexer_run hnext')]
    cases hfound with
    | none => exact .ok .none ((hs.withLexer hl hl').withLog _ _)
    | some htwins =>
      exact .ok (.some htwins)
        ⟨⟨k, hl, hl'⟩, hs.symbols, hs.names, hs.generator, hs.inside, .inr ⟨_, _, htwins, rfl, rfl⟩⟩

theorem consumeIf {property : Token → Bool}
    (hproperty : ∀ t u, x.Twins y t u → property u = property t) :
    Lockstep r x y Eq (Analyzer.consumeIf property) (Analyzer.consumeIf property) := by
  unfold Analyzer.consumeIf
  refine .bind h.peek fun found found' hfound => ?_
  cases hfound with
  | none => exact .pure rfl
  | @some t u htwins =>
    refine .ite (by rw [hproperty t u htwins]) (fun _ => ?_) fun _ => .pure rfl
    refine .bind h.consume fun found found' hfound => ?_
    cases hfound with
    | none => exact .pure rfl
    | some => exact .pure rfl

/-- A part that is there if a certain token is. -/
theorem optional {property : Token → Bool}
    (hproperty : ∀ t u, x.Twins y t u → property u = property t)
    {m m' : Analyzer Unit} (hm : Lockstep r x y Eq m m') :
    Lockstep r x y Eq (do if ← Analyzer.consumeIf property then m)
      (do if ← Analyzer.consumeIf property then m') := by
  refine .bind (h.consumeIf hproperty) fun taken taken' htaken => ?_
  subst htaken
  exact .ite Iff.rfl (fun _ => hm) fun _ => .pure rfl

/-- Whether a token can be given back depends on the place of the cursor only. -/
theorem onLexer_retract : Lockstep r x y Eq (onLexer Lexer.retract) (onLexer Lexer.retract) := by
  intro s s' hs
  obtain ⟨k, hl, hl'⟩ := hs.lexer
  have hagrees := hl.retract
  have hagrees' := hl'.retract
  have htracks' := hagrees'.tracks
  rw [h.after_eq] at htracks'
  have hanswer : LexerAnswer.ofRetraction s.lexer.retract.answer =
      .ofRetraction s'.lexer.retract.answer := hagrees.answer.trans hagrees'.answer.symm
  refine .ok ?_ ((hs.withLexer hagrees.tracks htracks').withLog _ _)
  cases hretract : s.lexer.retract.answer with
  | ok =>
    cases hretract' : s'.lexer.retract.answer with
    | ok => exact hretract.trans hretract'.symm
    | error e' =>
      rw [hretract, hretract'] at hanswer
      cases hanswer
  | error e =>
    cases hretract' : s'.lexer.retract.answer with
    | ok =>
      rw [hretract, hretract'] at hanswer
      cases hanswer
    | error e' =>
      rw [hretract, hretract'] at hanswer
      cases hanswer
      exact hretract.trans hretract'.symm

theorem retract : Lockstep r x y Eq Analyzer.retract Analyzer.retract := by
  unfold Analyzer.retract
  refine .bind h.onLexer_retract fun answer answer' hanswer => ?_
  subst hanswer
  cases answer with
  | ok => exact .pure rfl
  | error e => exact .rejectHere (.internal _)

theorem expect {kind : TokenKind} (hkind : kind ≠ .identifier) (text : String) :
    Lockstep r x y Eq (Analyzer.expect kind text) (Analyzer.expect kind text) := by
  unfold Analyzer.expect
  refine .bind h.consume fun found found' hfound => ?_
  cases hfound with
  | none => exact h.unexpected _ .none
  | some htwins =>
    refine .ite (by rw [h.is_eq htwins hkind]) (fun _ => .pure rfl) fun _ => ?_
    exact h.unexpected _ (.some htwins)

theorem expectKeyword (k : Keyword) :
    Lockstep r x y Eq (Analyzer.expectKeyword k) (Analyzer.expectKeyword k) :=
  h.expect TokenKind.noConfusion k.text

theorem expectSymbol (text : String) :
    Lockstep r x y Eq (Analyzer.expectSymbol text) (Analyzer.expectSymbol text) :=
  h.expect TokenKind.noConfusion text

/-- Two identifiers at the same position. -/
theorem expectIdentifier :
    Lockstep r x y (fun t u => x.Twins y t u ∧ t.kind = .identifier) Analyzer.expectIdentifier
      Analyzer.expectIdentifier := by
  unfold Analyzer.expectIdentifier
  refine .bind h.consume fun found found' hfound => ?_
  cases hfound with
  | none => exact h.unexpected _ .none
  | some htwins =>
    refine .ite (by rw [h.kind_eq htwins]) (fun hk => .pure ⟨htwins, hk⟩) fun _ => ?_
    exact h.unexpected _ (.some htwins)

end Counterparts

/-! ## 3. Names -/

/-- Declaring a name has the same outcome, up to the name. -/
inductive SameDeclaration (r : String → String) (name : String) :
    Except DeclarationError Unit → Except DeclarationError Unit → Prop
  | ok : SameDeclaration r name (.ok ()) (.ok ())
  | again :
      SameDeclaration r name (.error (.alreadyDeclared name)) (.error (.alreadyDeclared (r name)))

namespace Counterparts

variable (h : Counterparts r x y)

include h

/-- An identifier has the type in one table that its twin has in the other. -/
theorem lookup?_eq {s s' : AnalysisState} (hs : Abreast r x y s s') (ht : x.Twins y t u)
    (hk : t.kind = .identifier) : s'.symbols.lookup? u.text = s.symbols.lookup? t.text := by
  rw [hs.symbols, h.name_eq ht hk]
  refine SymbolTable.lookup?_rename fun v hv => ?_
  exact h.injective v.name (hs.names v hv) t.text (Stream.Renames.mem_identifiers ht hk)

theorem reference (ht : x.Twins y t u) (hk : t.kind = .identifier) :
    Lockstep r x y Eq (Analyzer.reference t) (Analyzer.reference u) := by
  unfold Analyzer.reference
  refine .get_bind fun s s' hs => ?_
  rw [h.lookup?_eq hs ht hk]
  cases s.symbols.lookup? t.text with
  | some type => exact .pure rfl
  | none =>
    rw [h.name_eq ht hk]
    exact .reject (.undeclared t.text) (.token ht)

theorem onSymbols_declare (ht : x.Twins y t u) (hk : t.kind = .identifier) (type : VarType) :
    Lockstep r x y (SameDeclaration r t.text) (onSymbols (·.declare t.text type))
      (onSymbols (·.declare u.text type)) := by
  intro s s' hs
  have hlookup := h.lookup?_eq hs ht hk
  cases hfound : s.symbols.lookup? t.text with
  | some other =>
    rw [hfound] at hlookup
    have hcall : s.symbols.declare t.text type =
        ⟨.error (.alreadyDeclared t.text), s.symbols, []⟩ := by
      rw [SymbolTable.declare, hfound]
    have hcall' : s'.symbols.declare u.text type =
        ⟨.error (.alreadyDeclared (r t.text)), s'.symbols, []⟩ := by
      rw [SymbolTable.declare, hlookup, h.name_eq ht hk]
    rw [onSymbols_run hcall, onSymbols_run hcall']
    exact .ok .again (hs.withLog _ _)
  | none =>
    rw [hfound] at hlookup
    have hcall : s.symbols.declare t.text type =
        ⟨.ok (), ⟨s.symbols.symbols.push ⟨t.text, type⟩⟩, [.declared t.text type]⟩ := by
      rw [SymbolTable.declare, hfound]
    have hcall' : s'.symbols.declare u.text type =
        ⟨.ok (), ⟨s'.symbols.symbols.push ⟨u.text, type⟩⟩, [.declared u.text type]⟩ := by
      rw [SymbolTable.declare, hlookup]
    rw [onSymbols_run hcall, onSymbols_run hcall']
    refine .ok .ok ⟨hs.lexer, ?_, ?_, hs.generator, hs.inside, hs.lastSpan⟩
    · show SymbolTable.mk (s'.symbols.symbols.push ⟨u.text, type⟩) = _
      rw [hs.symbols, h.name_eq ht hk, SymbolTable.rename, SymbolTable.rename, Array.map_push]
      rfl
    · intro v hv
      rcases Array.mem_push.mp (Array.mem_toList_iff.mp hv) with hv | rfl
      · exact hs.names v (Array.mem_toList_iff.mpr hv)
      · exact Stream.Renames.mem_identifiers ht hk

theorem declare (ht : x.Twins y t u) (hk : t.kind = .identifier) (type : VarType) :
    Lockstep r x y Eq (Analyzer.declare t type) (Analyzer.declare u type) := by
  unfold Analyzer.declare
  refine .bind (h.onSymbols_declare ht hk type) fun answer answer' hanswer => ?_
  cases hanswer with
  | ok =>
    rw [h.name_eq ht hk]
    exact .bind (.onGenerator fun g => g.emit_renamed _) fun _ _ _ => .pure rfl
  | again => exact .reject (.alreadyDeclared t.text) (.token ht)

end Counterparts

end ThreeAddress
