import ThreeAddress.Proofs.Analysis.Outcome
import ThreeAddress.Proofs.Lexer.Calls

/-!
# What an analysis accepts, and what it reports

A position in the tokens of a source is bad if no program begins with the tokens up to it, if its
token breaks a rule about names, or if the tokens break off there. An analysis stops at the first
bad position and reports what is wrong with it; if there is none, it accepts. It never blames
itself: each report is about the source, and no check of the analysis' own calls fails.

The parser complains at the right place because it has the valid-prefix property: what it has read
can be completed (`Sound.reads`), and what it is stuck at cannot (`Sound.forced`).
-/

namespace ThreeAddress

open Grammar ContextFreeRule

/-! ## 1. Bad positions -/

namespace Stream

/-- The position is bad. -/
inductive Bad (x : Stream) : Nat → Prop
  /-- the token there cannot be cut out -/
  | lexical {e : LexError} (fails : x.error = some e) : Bad x x.tokens.length
  /-- no program begins with the tokens up to this one -/
  | hopeless {k : Nat} {t : Token} (token : x.tokens[k]? = some t)
      (dead : ¬ Viable (x.tokens.take (k + 1))) : Bad x k
  /-- the token declares a name again -/
  | redeclared {k : Nat} {t : Token} (token : x.tokens[k]? = some t)
      (again : Redeclares (x.tokens.take k) t) : Bad x k
  /-- the token uses a name that was not declared -/
  | undeclared {k : Nat} {t : Token} (token : x.tokens[k]? = some t)
      (unknown : UsesUndeclared (x.tokens.take k) t) : Bad x k
  /-- the tokens end there, before the program does -/
  | incomplete (atEnd : x.error = none) (short : ¬ Derivable x.tokens) : Bad x x.tokens.length

/-- The diagnostic says what is wrong with a bad position, at the place of it. -/
inductive Reported (source : String) (x : Stream) (k : Nat) : Diagnostic → Prop
  | lexical {e : LexError} {location : Location} {stack : List NonTerminal}
      (position : k = x.tokens.length) (fails : x.error = some e)
      (place : Location.resolve source e.span = .ok location) :
      Reported source x k ⟨.lexical e, some location, stack⟩
  | unexpected {t : Token} {expected : String} {location : Location} {stack : List NonTerminal}
      (token : x.tokens[k]? = some t) (dead : ¬ Viable (x.tokens.take (k + 1)))
      (place : Location.resolve source t.span = .ok location) :
      Reported source x k ⟨.unexpected expected (some t), some location, stack⟩
  | redeclared {t : Token} {location : Location} {stack : List NonTerminal}
      (token : x.tokens[k]? = some t) (viable : Viable (x.tokens.take (k + 1)))
      (again : Redeclares (x.tokens.take k) t)
      (place : Location.resolve source t.span = .ok location) :
      Reported source x k ⟨.declaration (.alreadyDeclared t.text), some location, stack⟩
  | undeclared {t : Token} {location : Location} {stack : List NonTerminal}
      (token : x.tokens[k]? = some t) (viable : Viable (x.tokens.take (k + 1)))
      (unknown : UsesUndeclared (x.tokens.take k) t)
      (place : Location.resolve source t.span = .ok location) :
      Reported source x k ⟨.declaration (.undeclared t.text), some location, stack⟩
  | ended {last : Token} {expected : String} {location : Location} {stack : List NonTerminal}
      (position : k = x.tokens.length) (atEnd : x.error = none)
      (token : x.tokens.getLast? = some last)
      (place : Location.resolve source ⟨last.span.offset + last.span.len, 0⟩ = .ok location) :
      Reported source x k ⟨.unexpected expected none, some location, stack⟩
  | empty {expected : String} {stack : List NonTerminal} (position : k = 0) (atEnd : x.error = none)
      (absent : x.tokens = []) : Reported source x k ⟨.unexpected expected none, none, stack⟩

end Stream

theorem Grammar.Viable.of_prefix {ts us : List Token} (h : ts <+: us) (hus : Viable us) :
    Viable ts := by
  obtain ⟨word, hword, hprefix⟩ := hus
  exact ⟨word, hword, (h.map Token.terminal?).trans hprefix⟩

theorem Grammar.Derivable.viable {ts : List Token} (h : Derivable ts) : Viable ts := by
  obtain ⟨word, hword, hts⟩ := h
  exact ⟨word, hword, by rw [hts]⟩

theorem eq_take_append_cons_drop {ts : List Token} {k : Nat} {t : Token} (h : ts[k]? = some t) :
    ts = ts.take k ++ t :: ts.drop (k + 1) := by
  obtain ⟨hk, rfl⟩ := List.getElem?_eq_some_iff.mp h
  rw [← List.drop_eq_getElem_cons hk, List.take_append_drop]

/-- **No position is bad exactly if the tokens are a program** that keeps the rules about names. -/
theorem Stream.forall_not_bad_iff {x : Stream} :
    (∀ k, ¬ x.Bad k) ↔ x.error = none ∧ Derivable x.tokens ∧ WellNamed x.tokens := by
  constructor
  · intro h
    have herror : x.error = none := by
      cases he : x.error with
      | none => rfl
      | some e => exact absurd (.lexical he) (h _)
    refine ⟨herror, Classical.byContradiction fun hd => h _ (.incomplete herror hd), ?_⟩
    intro seen t rest hx
    have htoken : x.tokens[seen.length]? = some t := by simp [hx]
    have hseen : x.tokens.take seen.length = seen := by simp [hx]
    exact ⟨fun hr => h _ (.redeclared htoken (by rwa [hseen])),
      fun hu => h _ (.undeclared htoken (by rwa [hseen]))⟩
  · rintro ⟨herror, hderivable, hnamed⟩ k hbad
    cases hbad with
    | lexical fails =>
      rw [herror] at fails
      cases fails
    | hopeless token dead => exact dead (hderivable.viable.of_prefix (List.take_prefix ..))
    | redeclared token again => exact (hnamed _ _ _ (eq_take_append_cons_drop token)).1 again
    | undeclared token unknown => exact (hnamed _ _ _ (eq_take_append_cons_drop token)).2 unknown
    | incomplete atEnd short => exact short hderivable

/-! ## 2. Points and positions -/

section

variable {x : Scanned} {π : Point} {p : Products}

/-- What a parser has read goes on with what it still expects. -/
theorem Sound.reads (h : Sound x π p) :
    ∃ word : List Terminal, π.seen.map Token.terminal? = word.map some ∧
      ∀ w, Yields rules π.form w → Yields rules [.nonterminal .program] (word ++ w) := by
  obtain ⟨word, hinput, hword⟩ := h.moves.reads
  rw [h.tokens, List.map_append] at hinput
  exact ⟨word, List.append_cancel_right hinput, hword⟩

/-- What goes on from what a parser has read, with the next token, is what it still expects. -/
theorem Sound.forced (h : Sound x π p) {word w : List Terminal}
    (hseen : π.seen.map Token.terminal? = word.map some)
    (hnext : w.head? = π.coming.head?.bind Token.terminal?)
    (hw : Yields rules [.nonterminal .program] (word ++ w)) : Yields rules π.form w := by
  refine h.moves.forced (by simp [Lookahead.Followed, Lookahead.starts]) ?_ ?_ hw
  · rw [h.tokens, List.map_append, hseen]
  · rw [hnext]
    cases π.coming <;> rfl

theorem Sound.followed (h : Sound x π p) : table.Followed π.form :=
  h.moves.followed (by simp [Lookahead.Followed, Lookahead.starts])

theorem Sound.viable (h : Sound x π p) : Viable π.seen := by
  obtain ⟨word, hseen, hword⟩ := h.reads
  obtain ⟨w, hw⟩ := exists_yields π.form
  exact viable_iff.mpr ⟨word, w, hword w hw, hseen⟩

/-- The next token is the terminal that is expected. -/
theorem Sound.viable_concat (h : Sound x π p) {t : Token} {a : Terminal}
    {form : List (Item Terminal NonTerminal)} (hform : π.form = .terminal a :: form)
    (ht : t.terminal? = some a) : Viable (π.seen ++ [t]) := by
  obtain ⟨word, hseen, hword⟩ := h.reads
  obtain ⟨w, hw⟩ := exists_yields form
  refine viable_iff.mpr ⟨word ++ [a], w, ?_, by simp [hseen, ht]⟩
  rw [List.append_assoc]
  exact hword _ (by rw [hform]; exact .terminal hw)

/-- Where the next token stands. -/
theorem Sound.next (h : Sound x π p) {t : Token} {rest : List Token}
    (hnext : π.coming = t :: rest) :
    x.tokens[π.seen.length]? = some t ∧ x.tokens.take π.seen.length = π.seen ∧
      x.tokens.take (π.seen.length + 1) = π.seen ++ [t] := by
  have htokens := h.tokens
  rw [hnext] at htokens
  exact ⟨by simp [htokens], by simp [htokens], by simp [htokens, List.take_append]⟩

theorem Sound.seen_eq (h : Sound x π p) (hend : π.coming = []) : π.seen = x.tokens := by
  rw [h.tokens, hend, List.append_nil]

/-- The parser is stuck at the next token, so no program begins with the tokens up to it. -/
theorem Sound.not_viable_concat (h : Sound x π p) {t : Token} {rest : List Token}
    (hnext : π.coming = t :: rest) (hstuck : table.Stuck π.form (some t.terminal?)) :
    ¬ Viable (π.seen ++ [t]) := by
  intro hviable
  obtain ⟨word, w, hyields, hword⟩ := viable_iff.mp hviable
  rw [List.map_append, List.map_singleton] at hword
  obtain ⟨word, b, rfl, hseen, hb⟩ := List.map_eq_append_iff.mp hword.symm
  obtain ⟨a, rfl, ha⟩ := List.map_eq_singleton_iff.mp hb
  rw [List.append_assoc] at hyields
  refine PredictiveTable.Stuck.not_yields (w := a :: w) ?_ h.followed
    (h.forced hseen.symm (by simp [hnext, ← ha]) hyields)
  rwa [← ha] at hstuck

/-- The parser is stuck at the end, so the tokens are no program. -/
theorem Sound.not_derivable (h : Sound x π p) (hend : π.coming = [])
    (hstuck : table.Stuck π.form none) : ¬ Derivable π.seen := by
  intro hderivable
  obtain ⟨word, hyields, hseen⟩ := derivable_iff.mp hderivable
  refine PredictiveTable.Stuck.not_yields (w := []) hstuck h.followed
    (h.forced hseen (by simp [hend]) (by rwa [List.append_nil]))

/-- **Behind a parser there is no bad position.** -/
theorem Sound.not_bad (h : Sound x π p) {j : Nat} (hj : j < π.seen.length) : ¬ x.Bad j := by
  have htake : ∀ n, n ≤ π.seen.length → x.tokens.take n = π.seen.take n := by
    intro n hn
    rw [h.tokens, List.take_append_of_le_length hn]
  have hsplit : ∀ {t}, x.tokens[j]? = some t →
      π.seen = x.tokens.take j ++ t :: π.seen.drop (j + 1) := by
    intro t ht
    rw [h.tokens, List.getElem?_append_left hj] at ht
    rw [htake j (Nat.le_of_lt hj)]
    exact eq_take_append_cons_drop ht
  have hlast : j ≠ x.tokens.length := by
    rw [h.tokens, List.length_append]
    omega
  intro hbad
  cases hbad with
  | lexical fails => exact hlast rfl
  | hopeless token dead =>
    rw [htake (j + 1) hj] at dead
    exact dead (h.viable.of_prefix (List.take_prefix ..))
  | redeclared token again => exact (h.wellNamed _ _ _ (hsplit token)).1 again
  | undeclared token unknown => exact (h.wellNamed _ _ _ (hsplit token)).2 unknown
  | incomplete atEnd short => exact hlast rfl

end

/-! ## 3. Complaints and reports -/

/-- A span can be located if it ends at a machine word and there is room for its marker. -/
theorem exists_resolve (source : String) (span : Span) (hstop : span.offset + span.len < wordLimit)
    (hlen : span.len < textLimit) : ∃ location, Location.resolve source span = .ok location := by
  have hadd : addWords span.offset span.len = .ok (span.offset + span.len) := if_pos hstop
  have hsize : textSize span.len = .ok span.len := if_pos hlen
  rw [Location.resolve]
  simp only [hadd, hsize, bind, Except.bind]
  split <;> exact ⟨_, rfl⟩

theorem locate_of_resolve {source : String} {cause : Cause} {span : Span} {stack : List NonTerminal}
    {location : Location} (h : Location.resolve source span = .ok location) :
    (Stop.rejected cause (some span) stack).locate source = .rejected ⟨cause, location, stack⟩ := by
  simp [Stop.locate, h]

/-- The number of temporaries is used up before the first bad position. -/
def OutOfTemporaries (source : String) : Prop :=
  (Analysis.ofSource source).1 = .error (.fault .additionOverflow) ∧
    ∃ n, (∀ j < n, ¬ (sourceStream source).Bad j) ∧
      Generator.tempLimit ≤ operatorCount ((sourceStream source).tokens.take n)

section

variable {source : String} {π : Point} {p : Products}

/-- The tokens of a source that can be held in memory end where a machine word can say. -/
theorem stop_lt_textLimit (hsize : source.utf8ByteSize < textLimit) {t : Token}
    (ht : t ∈ (sourceStream source).tokens) : t.span.offset + t.span.len < textLimit :=
  Nat.lt_of_le_of_lt ((sourceStream_liesIn source).1.tokens t ht).stop_le hsize

theorem textLimit_lt_wordLimit : textLimit + 4 < wordLimit := by
  decide

theorem exists_resolve_token (hsize : source.utf8ByteSize < textLimit) {t : Token}
    (ht : t ∈ (sourceStream source).tokens) :
    ∃ location, Location.resolve source t.span = .ok location := by
  have hstop := stop_lt_textLimit hsize ht
  have hword := textLimit_lt_wordLimit
  exact exists_resolve source t.span (by omega) (by omega)

/-- The place right after a token. -/
theorem exists_resolve_after (hsize : source.utf8ByteSize < textLimit) {t : Token}
    (ht : t ∈ (sourceStream source).tokens) :
    ∃ location, Location.resolve source ⟨t.span.offset + t.span.len, 0⟩ = .ok location := by
  have hstop := stop_lt_textLimit hsize ht
  have hword := textLimit_lt_wordLimit
  exact exists_resolve source _ (by simp only [Nat.add_zero]; omega) (by simp only; decide)

theorem exists_resolve_error (hsize : source.utf8ByteSize < textLimit) {e : LexError}
    (he : (sourceStream source).error = some e) :
    ∃ location, Location.resolve source e.span = .ok location := by
  have hspan := (sourceStream_liesIn source).1.error e he
  have hlen : e.span.len < textLimit := Nat.lt_of_le_of_lt hspan.2 (by decide)
  have hword := textLimit_lt_wordLimit
  exact exists_resolve source e.span (by omega) hlen

/-- The source ends before the program does. -/
theorem reported_ended (hsize : source.utf8ByteSize < textLimit)
    (atEnd : (sourceStream source).error = none) (expected : String) (stack : List NonTerminal) :
    ∃ d, (Stop.rejected (.unexpected expected none) ((sourceStream source).tokens.getLast?.map
        fun t => ⟨t.span.offset + t.span.len, 0⟩) stack).locate source = .rejected d ∧
      (sourceStream source).Reported source (sourceStream source).tokens.length d := by
  cases hlast : (sourceStream source).tokens.getLast? with
  | none =>
    have hnil : (sourceStream source).tokens = [] := List.getLast?_eq_none_iff.mp hlast
    exact ⟨⟨.unexpected expected none, none, stack⟩, rfl, .empty (by rw [hnil]; rfl) atEnd hnil⟩
  | some t =>
    obtain ⟨location, hl⟩ := exists_resolve_after hsize (List.mem_of_getLast? hlast)
    exact ⟨_, locate_of_resolve hl, .ended rfl atEnd hlast hl⟩

/-- **A complaint is a report about the first bad position**, or the temporaries are used up. -/
theorem Complaint.reported {stop : Stop} (hc : Complaint (scanned source) π stop)
    (h : Sound (scanned source) π p) (hsize : source.utf8ByteSize < textLimit) :
    (∃ d, stop.locate source = .rejected d ∧ (sourceStream source).Bad π.seen.length ∧
      (sourceStream source).Reported source π.seen.length d) ∨
    (stop = .fault .additionOverflow ∧ Generator.tempLimit ≤ operatorCount π.seen) := by
  cases hc with
  | @lexical e stack ends fails =>
    obtain ⟨location, hl⟩ := exists_resolve_error hsize fails
    rw [h.seen_eq ends]
    exact .inl ⟨_, locate_of_resolve hl, .lexical fails, .lexical rfl fails hl⟩
  | @unexpected t rest expected stack next stuck =>
    obtain ⟨htoken, -, hthis⟩ := h.next next
    obtain ⟨location, hl⟩ := exists_resolve_token hsize (List.mem_of_getElem? htoken)
    have hdead := h.not_viable_concat next stuck
    rw [← hthis] at hdead
    exact .inl ⟨_, locate_of_resolve hl, .hopeless htoken hdead, .unexpected htoken hdead hl⟩
  | @ended expected stack ends atEnd stuck =>
    have hshort := h.not_derivable ends stuck
    rw [h.seen_eq ends] at hshort ⊢
    obtain ⟨d, hd, hreported⟩ := reported_ended hsize atEnd expected stack
    exact .inl ⟨d, hd, .incomplete atEnd hshort, hreported⟩
  | @redeclared t rest form stack next expects again =>
    obtain ⟨htoken, hbefore, hthis⟩ := h.next next
    obtain ⟨location, hl⟩ := exists_resolve_token hsize (List.mem_of_getElem? htoken)
    have hviable := h.viable_concat expects (Token.terminal?_class_iff.1.mpr again.1)
    rw [← hthis] at hviable
    rw [← hbefore] at again
    exact .inl ⟨_, locate_of_resolve hl, .redeclared htoken again,
      .redeclared htoken hviable again hl⟩
  | @undeclared t rest form stack next expects unknown =>
    obtain ⟨htoken, hbefore, hthis⟩ := h.next next
    obtain ⟨location, hl⟩ := exists_resolve_token hsize (List.mem_of_getElem? htoken)
    have hviable := h.viable_concat expects (Token.terminal?_class_iff.1.mpr unknown.1)
    rw [← hthis] at hviable
    rw [← hbefore] at unknown
    exact .inl ⟨_, locate_of_resolve hl, .undeclared htoken unknown,
      .undeclared htoken hviable unknown hl⟩
  | overflow many => exact .inr ⟨rfl, many⟩
  | misplaced mem far =>
    have hstop := stop_lt_textLimit hsize mem
    have hword := textLimit_lt_wordLimit
    omega

/-- **What can be wrong with a source that keeps the grammar** is a name, or the number of its
operations. -/
theorem Complaint.of_derivable {stop : Stop} (hc : Complaint (scanned source) π stop)
    (h : Sound (scanned source) π p) (herror : (sourceStream source).error = none)
    (hderivable : Derivable (sourceStream source).tokens) :
    (∃ t rest, π.coming = t :: rest ∧ Redeclares π.seen t) ∨
    (∃ t rest stack, π.coming = t :: rest ∧ UsesUndeclared π.seen t ∧
      stop = .rejected (.declaration (.undeclared t.text)) (some t.span) stack) ∨
    Generator.tempLimit ≤ operatorCount π.seen := by
  have htokens : (sourceStream source).tokens = π.seen ++ π.coming := h.tokens
  have hviable : ∀ {t rest}, π.coming = t :: rest → Viable (π.seen ++ [t]) := by
    intro t rest hnext
    refine hderivable.viable.of_prefix ⟨rest, ?_⟩
    rw [htokens, hnext, List.append_assoc, List.singleton_append]
  have hwhole : π.coming = [] → Derivable π.seen := by
    intro hend
    rwa [htokens, hend, List.append_nil] at hderivable
  cases hc with
  | lexical ends fails => exact absurd (fails.symm.trans herror) (Option.some_ne_none _)
  | unexpected next stuck => exact absurd (hviable next) (h.not_viable_concat next stuck)
  | ended ends atEnd stuck => exact absurd (hwhole ends) (h.not_derivable ends stuck)
  | redeclared next expects again => exact .inl ⟨_, _, next, again⟩
  | undeclared next expects unknown => exact .inr (.inl ⟨_, _, _, next, unknown, rfl⟩)
  | overflow many => exact .inr (.inr many)
  | misplaced mem far ends atEnd stuck => exact absurd (hwhole ends) (h.not_derivable ends stuck)

theorem Sound.operatorCount_le (h : Sound (scanned source) π p) :
    operatorCount π.seen ≤ operatorCount (sourceStream source).tokens := by
  rw [show (sourceStream source).tokens = π.seen ++ π.coming from h.tokens, operatorCount,
    operatorCount, List.countP_append]
  exact Nat.le_add_right _ _

end

/-! ## 4. The verdict -/

/-- An analysis accepts and there is no bad position, or it reports the first one, or it runs out of
temporaries before there is one. -/
theorem verdict {source : String} (hsize : source.utf8ByteSize < textLimit) :
    ((∃ a, (Analysis.ofSource source).1 = .ok a) ∧ ∀ k, ¬ (sourceStream source).Bad k) ∨
    (∃ k d, (Analysis.ofSource source).1 = .error (.rejected d) ∧
      (∀ j < k, ¬ (sourceStream source).Bad j) ∧ (sourceStream source).Bad k ∧
      (sourceStream source).Reported source k d) ∨
    OutOfTemporaries source := by
  rcases run_outcome source with ⟨a, s, tree, hrun, haccepted⟩ |
    ⟨stop, s, hrun, π, p, hsound, hcomplaint⟩
  · exact .inl ⟨⟨a, ofSource_of_ok hrun⟩, Stream.forall_not_bad_iff.mpr
      ⟨haccepted.error, haccepted.derivable, haccepted.wellNamed⟩⟩
  · have hanswer := ofSource_of_error hrun
    rcases hcomplaint.reported hsound hsize with ⟨d, hd, hbad, hreported⟩ | ⟨rfl, hmany⟩
    · rw [hd] at hanswer
      exact .inr (.inl ⟨_, d, hanswer, fun j hj => hsound.not_bad hj, hbad, hreported⟩)
    · refine .inr (.inr ⟨hanswer, _, fun j hj => hsound.not_bad hj, ?_⟩)
      rw [show (sourceStream source).tokens = π.seen ++ π.coming from hsound.tokens,
        List.take_left]
      exact hmany

theorem operatorCount_take_le (source : String) (n : Nat) :
    operatorCount ((sourceStream source).tokens.take n) ≤ source.utf8ByteSize :=
  calc operatorCount ((sourceStream source).tokens.take n)
    _ ≤ ((sourceStream source).tokens.take n).length := List.countP_le_length
    _ ≤ (sourceStream source).tokens.length := List.length_take_le' ..
    _ ≤ source.length := (sourceStream_liesIn source).2
    _ = source.toList.length := String.length_toList.symm
    _ ≤ source.utf8ByteSize := by
      rw [← Text.byteSize_toList]
      exact Text.length_le_byteSize _

namespace Analysis

/-- **An analysis accepts exactly the language**: the sources that can be cut into tokens, are
derived by the grammar, declare no name twice and use no name that is not declared. -/
theorem accepts_exactly_language {source : String} (hsize : source.utf8ByteSize < UInt32.size) :
    (∃ a, (ofSource source).1 = .ok a) ↔
      ∃ ts, (Lexer.ofSource source).tokens.answer = .ok ts ∧ Derivable ts ∧
        (identifiers (declarationPart ts)).Nodup ∧
        ∀ x ∈ identifiers (commandPart ts), x ∈ identifiers (declarationPart ts) := by
  have hright : (∃ ts, (Lexer.ofSource source).tokens.answer = .ok ts ∧ Derivable ts ∧
      (identifiers (declarationPart ts)).Nodup ∧
      ∀ x ∈ identifiers (commandPart ts), x ∈ identifiers (declarationPart ts)) ↔
      ∀ k, ¬ (sourceStream source).Bad k := by
    rw [Stream.forall_not_bad_iff]
    simp only [tokens_ofSource_eq_ok_iff, ← wellNamed_iff]
    constructor
    · rintro ⟨ts, hts, h⟩
      rw [hts]
      exact ⟨rfl, h⟩
    · rintro ⟨herror, h⟩
      exact ⟨_, by rw [← herror], h⟩
  rw [hright]
  have htext : source.utf8ByteSize < textLimit := Nat.lt_of_lt_of_le hsize (by decide)
  rcases verdict htext with ⟨ha, hgood⟩ | ⟨k, d, hd, -, hbad, -⟩ | ⟨hfault, n, -, hmany⟩
  · exact iff_of_true ha hgood
  · refine iff_of_false ?_ fun hgood => hgood k hbad
    rintro ⟨a, ha⟩
    rw [hd] at ha
    cases ha
  · exact absurd (Nat.le_trans hmany (operatorCount_take_le source n)) (Nat.not_le_of_lt hsize)

/-- A program that writes what it reads. -/
def echo : String :=
  "program echo integer: a begin read(a) write(a) end."

theorem accepts_exactly_language_echo :
    echo.utf8ByteSize < UInt32.size ∧
    (∃ a, (ofSource echo).1 = .ok a ∧ a.program.quads.size = 4) ∧
    ∃ ts, (Lexer.ofSource echo).tokens.answer = .ok ts ∧ Derivable ts ∧
      (identifiers (declarationPart ts)).Nodup ∧
      ∀ x ∈ identifiers (commandPart ts), x ∈ identifiers (declarationPart ts) := by
  obtain ⟨a, ha, hcode⟩ : ∃ a, (ofSource echo).1 = .ok a ∧ a.program.quads.size = 4 :=
    exists_of_map_toOption (by decide +kernel)
  exact ⟨by decide, ⟨a, ha, hcode⟩, (accepts_exactly_language (by decide)).mp ⟨a, ha⟩⟩

/-- **An analysis has no defect that a source could bring out.** It accepts, or it rejects for a
reason that lies in the source. So it only gives back the token that it has just taken, patches each
jump once and to an instruction that there can be, asks for jumps and comparisons with operators
that are such, and has a temporary for every operation, for each of these would otherwise be a fault
or an internal cause. The lexer's own check, that no lexeme is open when the characters run out,
holds whatever calls are made. -/
theorem free_of_defects {source : String} (hsize : source.utf8ByteSize < UInt32.size) :
    ((∃ a, (ofSource source).1 = .ok a) ∨
      ∃ d, (ofSource source).1 = .error (.rejected d) ∧ ∀ e, d.cause ≠ .internal e) ∧
    ∀ calls st, ((Lexer.ofSource source).afterAll calls).cursor.scan.1 = .ended st →
      st = .initial := by
  refine ⟨?_, fun calls st => Lexer.ended_initial source calls⟩
  have htext : source.utf8ByteSize < textLimit := Nat.lt_of_lt_of_le hsize (by decide)
  rcases verdict htext with ⟨ha, -⟩ | ⟨k, d, hd, -, -, hreported⟩ | ⟨-, n, -, hmany⟩
  · exact .inl ha
  · refine .inr ⟨d, hd, fun e => ?_⟩
    cases hreported <;> simp
  · -- each operation has a token of its own, so the bytes outnumber the temporaries
    exact absurd (Nat.le_trans hmany (operatorCount_take_le source n)) (Nat.not_le_of_lt hsize)

/-- A program with signs, jumps and all kinds of operators. -/
def signs : String :=
  "program p real: x begin if -x < 2 then x := -(x / 2) $ end."

/-- The same program without the end of its conditional. -/
def unfinishedSigns : String :=
  "program p real: x begin if -x < 2 then x := -(x / 2) end."

theorem free_of_defects_of_signs :
    signs.utf8ByteSize < UInt32.size ∧ (∃ a, (ofSource signs).1 = .ok a) ∧
    unfinishedSigns.utf8ByteSize < UInt32.size ∧
    (∃ d, (ofSource unfinishedSigns).1 = .error (.rejected d) ∧ ∀ e, d.cause ≠ .internal e) ∧
    ∀ calls st, ((Lexer.ofSource signs).afterAll calls).cursor.scan.1 = .ended st →
      st = .initial := by
  obtain ⟨hsigns, hends⟩ := @free_of_defects signs (by decide)
  have hunfinished := (@free_of_defects unfinishedSigns (by decide)).1
  refine ⟨by decide, hsigns.resolve_right ?_, by decide, hunfinished.resolve_left ?_, hends⟩
  · rintro ⟨d, hd, -⟩
    have hok : (ofSource signs).1.isOk = true := by decide +kernel
    rw [hd] at hok
    cases hok
  · rintro ⟨a, ha⟩
    have hok : (ofSource unfinishedSigns).1.isOk = false := by decide +kernel
    rw [ha] at hok
    cases hok

end Analysis

end ThreeAddress
