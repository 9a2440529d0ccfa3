import ThreeAddress.Lexer.Tokens

/-!
# The stream of tokens before a lexer

A lexer is a cursor with a slot for one token. What it will hand out is settled by the two: the
token in the slot, and the tokens that the automaton cuts out from the cursor on, up to the end of
the source or the first lexical error. `Lexer.stream` is that future.

With it the calls of a lexer are easy to say. `next` takes the first token off the stream, `peek`
leaves the stream as it is, and `retract` puts the last token back. Whoever drives a lexer needs to
know nothing else about it, and in particular not when the automaton runs.

The last section is about the stream of a source: its tokens lie inside the source, one after the
other, so there are no more of them than there are characters.
-/

namespace ThreeAddress

/-- What a lexer hands out: tokens, and then the end of the source or a lexical error. -/
structure Stream where
  tokens : List Token
  error : Option LexError
deriving Repr, DecidableEq

/-- A stream with one more token in front. -/
def Stream.cons (t : Token) (x : Stream) : Stream :=
  ⟨t :: x.tokens, x.error⟩

/-- What collecting a stream gives. -/
def Stream.collected (x : Stream) : Except LexError (List Token) :=
  match x.error with
  | none => .ok x.tokens
  | some e => .error e

theorem Stream.cons_eq_iff {x : Stream} {t u : Token} {us : List Token} {error : Option LexError} :
    x.cons t = ⟨u :: us, error⟩ ↔ t = u ∧ x = ⟨us, error⟩ := by
  obtain ⟨ts, e⟩ := x
  simp [cons, and_assoc]

/-! ## 1. The stream of a lexer -/

/-- The tokens that the automaton cuts out from a place on. -/
def Cursor.stream (c : Cursor) : Stream :=
  match _h : c.scan with
  | (.token t, c') => (stream c').cons t
  | (.ended _, _) => ⟨[], none⟩
  | (.failed e, _) => ⟨[], some e⟩
termination_by c.rest.length
decreasing_by
  have := c.length_rest_scan_lt t (by rw [_h])
  simpa [_h] using this

namespace Cursor

theorem stream_of_token {c c' : Cursor} {t : Token} (h : c.scan = (.token t, c')) :
    c.stream = c'.stream.cons t := by
  rw [stream]
  split
  · rename_i heq; rw [h] at heq; cases heq; rfl
  · rename_i heq; rw [h] at heq; cases heq
  · rename_i heq; rw [h] at heq; cases heq

theorem stream_of_ended {c c' : Cursor} {st : LexState} (h : c.scan = (.ended st, c')) :
    c.stream = ⟨[], none⟩ := by
  rw [stream]
  split
  · rename_i heq; rw [h] at heq; cases heq
  · rfl
  · rename_i heq; rw [h] at heq; cases heq

theorem stream_of_failed {c c' : Cursor} {e : LexError} (h : c.scan = (.failed e, c')) :
    c.stream = ⟨[], some e⟩ := by
  rw [stream]
  split
  · rename_i heq; rw [h] at heq; cases heq
  · rename_i heq; rw [h] at heq; cases heq
  · rename_i heq; rw [h] at heq; cases heq; rfl

/-! Conversely, the stream tells how the next run of the automaton ends. -/

theorem scan_of_stream_cons {c : Cursor} {t : Token} {ts : List Token} {error : Option LexError}
    (h : c.stream = ⟨t :: ts, error⟩) :
    ∃ c', c.scan = (.token t, c') ∧ c'.stream = ⟨ts, error⟩ := by
  rcases hs : c.scan with ⟨s, c'⟩
  cases s with
  | token u =>
    rw [stream_of_token hs, Stream.cons_eq_iff] at h
    obtain ⟨rfl, h⟩ := h
    exact ⟨c', rfl, h⟩
  | ended st => rw [stream_of_ended hs] at h; cases h
  | failed e => rw [stream_of_failed hs] at h; cases h

theorem scan_of_stream_end {c : Cursor} (h : c.stream = ⟨[], none⟩) :
    ∃ st c', c.scan = (.ended st, c') := by
  rcases hs : c.scan with ⟨s, c'⟩
  cases s with
  | token u => rw [stream_of_token hs] at h; cases h
  | ended st => exact ⟨st, c', rfl⟩
  | failed e => rw [stream_of_failed hs] at h; cases h

theorem scan_of_stream_error {c : Cursor} {e : LexError} (h : c.stream = ⟨[], some e⟩) :
    ∃ c', c.scan = (.failed e, c') := by
  rcases hs : c.scan with ⟨s, c'⟩
  cases s with
  | token u => rw [stream_of_token hs] at h; cases h
  | ended st => rw [stream_of_ended hs] at h; cases h
  | failed e' => rw [stream_of_failed hs] at h; cases h; exact ⟨c', rfl⟩

/-- When the characters have run out, the cursor is at the end. -/
theorem rest_of_ended {c c' : Cursor} {st : LexState} (h : c.scan = (.ended st, c')) :
    c'.rest = [] := by
  suffices ∀ (cs : List Char) (state : LexState) (start offset : Nat) (lexeme : String),
      scanFrom state start lexeme offset cs = (.ended st, c') → c'.rest = [] from this _ _ _ _ _ h
  intro cs
  induction cs with
  | nil =>
    intro state start offset lexeme h
    obtain ⟨-, rfl⟩ := Prod.mk.inj h
    rfl
  | cons d cs ih =>
    intro state start offset lexeme h
    unfold scanFrom at h
    split at h
    · exact ih _ _ _ _ h
    · exact ih _ _ _ _ h
    · cases h
    · cases h
    · cases h

theorem stream_of_rest_nil {c : Cursor} (h : c.rest = []) : c.stream = ⟨[], none⟩ := by
  have hscan : c.scan = (.ended .initial, ⟨c.offset, []⟩) := by rw [scan, h, scanFrom]
  exact stream_of_ended hscan

end Cursor

namespace Lexer

/-- What a lexer will hand out. -/
def stream (l : Lexer) : Stream :=
  match l.pushback with
  | some t => l.cursor.stream.cons t
  | none => l.cursor.stream

/-- If nothing more comes, nothing waits. -/
theorem pushback_of_stream_nil {l : Lexer} {error : Option LexError} (h : l.stream = ⟨[], error⟩) :
    l.pushback = none ∧ l.cursor.stream = ⟨[], error⟩ := by
  obtain ⟨cursor, last, pushback, poisoned⟩ := l
  cases pushback with
  | some t => cases h
  | none => exact ⟨rfl, h⟩

/-! ## 2. The calls of a lexer on its stream -/

/-- Taking a token takes it off the stream. -/
theorem next_of_cons {l : Lexer} {t : Token} {ts : List Token} {error : Option LexError}
    (h : l.stream = ⟨t :: ts, error⟩) :
    ∃ l' events, l.next = ⟨.ok (some t), l', events⟩ ∧ l'.stream = ⟨ts, error⟩ ∧
      l'.last = some t ∧ l'.pushback = none ∧ events ⊆ [.scanned t] := by
  obtain ⟨cursor, last, pushback, poisoned⟩ := l
  cases pushback with
  | some u =>
    obtain ⟨rfl, hstream⟩ := Stream.cons_eq_iff.mp h
    exact ⟨⟨cursor, some u, none, poisoned⟩, [], rfl, hstream, rfl, rfl, List.nil_subset _⟩
  | none =>
    obtain ⟨c, hs, hstream⟩ := Cursor.scan_of_stream_cons h
    exact ⟨⟨c, some t, none, poisoned⟩, [.scanned t], by simp only [next, scan, hs], hstream, rfl,
      rfl, List.Subset.refl _⟩

theorem next_of_end {l : Lexer} (h : l.stream = ⟨[], none⟩) :
    ∃ l', l.next = ⟨.ok none, l', []⟩ ∧ l'.stream = ⟨[], none⟩ := by
  obtain ⟨hp, hcursor⟩ := pushback_of_stream_nil h
  obtain ⟨st, c, hs⟩ := Cursor.scan_of_stream_end hcursor
  refine ⟨{ l with cursor := c, last := none }, by simp only [next, hp, scan, hs], ?_⟩
  rw [stream, hp]
  exact Cursor.stream_of_rest_nil (Cursor.rest_of_ended hs)

theorem next_of_error {l : Lexer} {e : LexError} (h : l.stream = ⟨[], some e⟩) :
    ∃ l', l.next = ⟨.error e, l', []⟩ := by
  obtain ⟨hp, hcursor⟩ := pushback_of_stream_nil h
  obtain ⟨c, hs⟩ := Cursor.scan_of_stream_error hcursor
  exact ⟨{ l with cursor := c, poisoned := true }, by simp only [next, hp, scan, hs]⟩

/-- Looking at a token leaves the stream as it is. -/
theorem peek_of_cons {l : Lexer} {t : Token} {ts : List Token} {error : Option LexError}
    (h : l.stream = ⟨t :: ts, error⟩) :
    ∃ l' events, l.peek = ⟨.ok (some t), l', events⟩ ∧ l'.stream = ⟨t :: ts, error⟩ ∧
      events ⊆ [.scanned t] := by
  obtain ⟨cursor, last, pushback, poisoned⟩ := l
  cases pushback with
  | some u =>
    obtain ⟨rfl, -⟩ := Stream.cons_eq_iff.mp h
    exact ⟨⟨cursor, none, some u, poisoned⟩, [], rfl, h, List.nil_subset _⟩
  | none =>
    obtain ⟨c, hs, hstream⟩ := Cursor.scan_of_stream_cons h
    exact ⟨⟨c, none, some t, poisoned⟩, [.scanned t], by simp only [peek, scan, hs],
      Stream.cons_eq_iff.mpr ⟨rfl, hstream⟩, List.Subset.refl _⟩

theorem peek_of_end {l : Lexer} (h : l.stream = ⟨[], none⟩) :
    ∃ l', l.peek = ⟨.ok none, l', []⟩ ∧ l'.stream = ⟨[], none⟩ := by
  obtain ⟨hp, hcursor⟩ := pushback_of_stream_nil h
  obtain ⟨st, c, hs⟩ := Cursor.scan_of_stream_end hcursor
  refine ⟨⟨c, none, none, l.poisoned⟩, by simp only [peek, hp, scan, hs], ?_⟩
  exact Cursor.stream_of_rest_nil (Cursor.rest_of_ended hs)

theorem peek_of_error {l : Lexer} {e : LexError} (h : l.stream = ⟨[], some e⟩) :
    ∃ l', l.peek = ⟨.error e, l', []⟩ := by
  obtain ⟨hp, hcursor⟩ := pushback_of_stream_nil h
  obtain ⟨c, hs⟩ := Cursor.scan_of_stream_error hcursor
  exact ⟨{ l with cursor := c, poisoned := true }, by simp only [peek, hp, scan, hs]⟩

/-- Giving a token back puts it in front of the stream again. -/
theorem retract_of_last {l : Lexer} {t : Token} {ts : List Token} {error : Option LexError}
    (h : l.stream = ⟨ts, error⟩) (hl : l.last = some t) (hp : l.pushback = none) :
    ∃ l', l.retract = ⟨.ok (), l', [.retracted t]⟩ ∧ l'.stream = ⟨t :: ts, error⟩ := by
  obtain ⟨cursor, last, pushback, poisoned⟩ := l
  cases hl
  cases hp
  exact ⟨⟨cursor, none, some t, poisoned⟩, rfl, Stream.cons_eq_iff.mpr ⟨rfl, h⟩⟩

/-! ## 3. The tokens that are collected -/

theorem poisoned_of_next {l l' : Lexer} {t : Token} {events : List Event}
    (hp : l.poisoned = false) (h : l.next = ⟨.ok (some t), l', events⟩) : l'.poisoned = false := by
  obtain ⟨cursor, last, pushback, poisoned⟩ := l
  cases pushback with
  | some u => cases h; exact hp
  | none =>
    rcases hs : cursor.scan with ⟨s, c⟩
    cases s with
    | token u => simp only [next, scan, hs] at h; cases h; exact hp
    | ended st => simp only [next, scan, hs] at h; cases h
    | failed e => simp only [next, scan, hs] at h; cases h

/-- **Collecting the tokens of a lexer gives its stream**: all tokens if it ends with the source,
and the lexical error otherwise. -/
theorem tokens_answer {l : Lexer} (hp : l.poisoned = false) :
    l.tokens.answer = l.stream.collected := by
  rcases h : l.stream with ⟨ts, error⟩
  induction ts generalizing l with
  | nil =>
    rw [tokens]
    cases error with
    | none =>
      obtain ⟨l', hnext, -⟩ := next_of_end h
      have hitem : l.item = ⟨none, l', []⟩ := by simp [item, hp, hnext]
      split
      · rfl
      · rename_i heq; rw [hitem] at heq; cases heq
      · rename_i heq; rw [hitem] at heq; cases heq
    | some e =>
      obtain ⟨l', hnext⟩ := next_of_error h
      have hitem : l.item = ⟨some (.error e), l', []⟩ := by simp [item, hp, hnext]
      split
      · rename_i heq; rw [hitem] at heq; cases heq
      · rename_i heq; rw [hitem] at heq; cases heq; rfl
      · rename_i heq; rw [hitem] at heq; cases heq
  | cons t ts ih =>
    obtain ⟨l', events, hnext, hstream, -⟩ := next_of_cons h
    have hitem : l.item = ⟨some (.ok t), l', events⟩ := by simp [item, hp, hnext]
    rw [tokens]
    split
    · rename_i heq; rw [hitem] at heq; cases heq
    · rename_i heq; rw [hitem] at heq; cases heq
    · rename_i heq
      rw [hitem] at heq
      cases heq
      show l'.tokens.answer.map (t :: ·) = _
      rw [ih (poisoned_of_next hp hnext) hstream]
      cases error <;> rfl

theorem tokens_answer_eq_ok_iff {l : Lexer} (hp : l.poisoned = false) {ts : List Token} :
    l.tokens.answer = .ok ts ↔ l.stream = ⟨ts, none⟩ := by
  rw [tokens_answer hp]
  rcases l.stream with ⟨us, _ | e⟩ <;> simp [Stream.collected]

end Lexer

/-! ## 4. The stream of a source -/

namespace Text

theorem size_utf8Encode (cs : List Char) : cs.utf8Encode.size = byteSize cs := by
  induction cs with
  | nil => rfl
  | cons c cs ih =>
    rw [List.utf8Encode_cons, ByteArray.size_append, ih, List.utf8Encode_singleton]
    simp [byteSize]

theorem byteSize_toList (s : String) : byteSize s.toList = s.utf8ByteSize := by
  rw [← size_utf8Encode]
  simp

theorem byteSize_append (cs ds : List Char) : byteSize (cs ++ ds) = byteSize cs + byteSize ds := by
  induction cs with
  | nil => simp [byteSize]
  | cons c cs ih => simp [byteSize, ih, Nat.add_assoc]

theorem length_le_byteSize (cs : List Char) : cs.length ≤ byteSize cs := by
  induction cs with
  | nil => exact Nat.le_refl _
  | cons c cs ih =>
    have := Char.utf8Size_pos c
    simp only [byteSize, List.length_cons]
    omega

end Text

/-- Whether the automaton makes a character part of the lexeme. -/
def LexAction.takes : LexAction → Bool
  | shift _ => true
  | emit _ consume => consume
  | skip | fail _ => false

/-- The space behind the source never becomes part of a lexeme. -/
theorem LexState.takes_step_space (st : LexState) : (st.step ' ').takes = false := by
  cases st with
  | relation first => simp [step, LexAction.takes]
  | initial | word | number | point | fraction | colon => decide

namespace Cursor

/-- A cursor in a source of `size` bytes, with the space behind the source still to come. -/
def Inside (size : Nat) (c : Cursor) : Prop :=
  ∃ cs, c.rest = cs ++ [' '] ∧ c.offset + Text.byteSize cs = size

/-- How a run of the automaton inside a source may end. -/
def EndsInside (size : Nat) : Scan × Cursor → Prop
  | (.token t, c) => c.Inside size ∧ t.span.offset + t.span.len = c.offset
  | (.ended _, _) => True
  | (.failed e, _) => e.span.offset ≤ size ∧ e.span.len ≤ 4

theorem endsInside_scanFrom (cs : List Char) (state : LexState) (start offset : Nat)
    (lexeme : String) (hstart : start ≤ offset) :
    EndsInside (offset + Text.byteSize cs) (scanFrom state start lexeme offset (cs ++ [' '])) := by
  induction cs generalizing state start offset lexeme with
  | nil =>
    have hspace := state.takes_step_space
    rw [List.nil_append, scanFrom]
    split
    · trivial
    · rename_i hs; rw [hs] at hspace; cases hspace
    · rename_i hs; rw [hs] at hspace; cases hspace
    · exact ⟨⟨[], rfl, rfl⟩, Nat.add_sub_cancel' hstart⟩
    · exact ⟨Nat.le_refl _, Char.utf8Size_le_four ' '⟩
  | cons c cs ih =>
    have hnext : start ≤ offset + c.utf8Size := Nat.le_add_right_of_le hstart
    rw [List.cons_append, scanFrom, Text.byteSize, ← Nat.add_assoc]
    split
    · exact ih _ _ _ _ (Nat.le_refl _)
    · exact ih _ _ _ _ hnext
    · exact ⟨⟨cs, rfl, rfl⟩, Nat.add_sub_cancel' hnext⟩
    · refine ⟨⟨c :: cs, rfl, ?_⟩, Nat.add_sub_cancel' hstart⟩
      rw [Text.byteSize, ← Nat.add_assoc]
    · refine ⟨?_, Char.utf8Size_le_four c⟩
      show offset ≤ _
      omega

theorem Inside.endsInside_scan {size : Nat} {c : Cursor} (h : c.Inside size) :
    EndsInside size c.scan := by
  obtain ⟨cs, hrest, hsize⟩ := h
  rw [scan, hrest, ← hsize]
  exact endsInside_scanFrom cs _ _ _ _ (Nat.le_refl _)

end Cursor

namespace LexState

/-- A lexeme that has started does not start again. -/
theorem step_ne_shift_initial (st : LexState) (c : Char) : st.step c ≠ .shift .initial := by
  cases st with
  | initial =>
    rw [step, stepInitial]
    repeat' split
    all_goals simp
  | _ =>
    rw [step]
    repeat' split
    all_goals simp

theorem step_eq_emit_semicolon {st : LexState} {c : Char} {consume : Bool}
    (h : st.step c = .emit .semicolon consume) : st = .initial ∧ c = ';' ∧ consume = true := by
  cases st with
  | initial =>
    rw [step, stepInitial] at h
    repeat' split at h
    all_goals simp_all
  | _ =>
    rw [step] at h
    repeat' split at h
    all_goals simp at h

end LexState

namespace Cursor

theorem kind_of_ofLexeme_semicolon {kind : TokenKind} {start stop : Nat} {text : String}
    (h : (Token.ofLexeme kind start stop text).kind = .semicolon) : kind = .semicolon := by
  simp only [Token.ofLexeme] at h
  split at h
  · cases h
  · exact h

/-- The only lexeme of the kind of semicolons is the semicolon. -/
theorem text_of_semicolon {cs : List Char} {state : LexState} {start offset : Nat} {lexeme : String}
    {t : Token} {c : Cursor} (hl : state = .initial → lexeme = "")
    (h : scanFrom state start lexeme offset cs = (.token t, c)) (hk : t.kind = .semicolon) :
    t.text = ";" := by
  induction cs generalizing state start lexeme offset with
  | nil => cases h
  | cons d cs ih =>
    rw [scanFrom] at h
    split at h
    · exact ih hl h
    · rename_i st hs
      exact ih (fun hst => absurd (hst ▸ hs) (state.step_ne_shift_initial d)) h
    · rename_i kind hs
      cases h
      rw [kind_of_ofLexeme_semicolon hk] at hs
      obtain ⟨hst, rfl, -⟩ := LexState.step_eq_emit_semicolon hs
      rw [hl hst]
      rfl
    · rename_i kind hs
      cases h
      rw [kind_of_ofLexeme_semicolon hk] at hs
      exact absurd (LexState.step_eq_emit_semicolon hs).2.2 Bool.false_ne_true
    · cases h

end Cursor

/-- A token as the lexer makes it from a source of `size` bytes: it lies in the source, and it has
the text of its kind if that is the semicolon. -/
structure Token.LiesIn (size : Nat) (t : Token) : Prop where
  stop_le : t.span.offset + t.span.len ≤ size
  text_eq : t.kind = .semicolon → t.text = ";"

/-- A stream as it comes from a source of `size` bytes. -/
structure Stream.LiesIn (size : Nat) (x : Stream) : Prop where
  tokens : ∀ t ∈ x.tokens, t.LiesIn size
  error : ∀ e ∈ x.error, e.span.offset ≤ size ∧ e.span.len ≤ 4

namespace Cursor

/-- **The tokens before a cursor in a source lie in the source**, and each takes a character. -/
theorem Inside.stream {size : Nat} {c : Cursor} (h : c.Inside size) :
    c.stream.LiesIn size ∧ c.stream.tokens.length < c.rest.length := by
  rcases hx : c.stream with ⟨ts, error⟩
  induction ts generalizing c with
  | nil =>
    have hends := h.endsInside_scan
    obtain ⟨cs, hrest, -⟩ := h
    refine ⟨⟨fun t ht => absurd ht List.not_mem_nil, fun e he => ?_⟩, by rw [hrest]; simp⟩
    obtain rfl : error = some e := he
    obtain ⟨c', hs⟩ := scan_of_stream_error hx
    rw [hs] at hends
    exact hends
  | cons t ts ih =>
    obtain ⟨c', hs, hstream⟩ := scan_of_stream_cons hx
    have hends := h.endsInside_scan
    have hless := c.length_rest_scan_lt t (by rw [hs])
    rw [hs] at hends hless
    obtain ⟨hinside, hstop⟩ := hends
    obtain ⟨hlies, hlength⟩ := ih hinside hstream
    have hle : c'.offset ≤ size := by
      obtain ⟨cs, -, hsize⟩ := hinside
      omega
    refine ⟨⟨fun u hu => ?_, hlies.error⟩, Nat.lt_of_le_of_lt hlength hless⟩
    rcases List.mem_cons.mp hu with rfl | hu
    · exact ⟨by rw [hstop]; exact hle, text_of_semicolon (fun _ => rfl) hs⟩
    · exact hlies.tokens u hu

end Cursor

/-- The stream of the tokens of a source. -/
def sourceStream (source : String) : Stream :=
  (Lexer.ofSource source).stream

theorem sourceStream_liesIn (source : String) :
    (sourceStream source).LiesIn source.utf8ByteSize ∧
      (sourceStream source).tokens.length ≤ source.length := by
  have hinside : (Lexer.ofSource source).cursor.Inside source.utf8ByteSize :=
    ⟨source.toList, rfl, by rw [Text.byteSize_toList]; exact Nat.zero_add _⟩
  obtain ⟨hlies, hlength⟩ := hinside.stream
  refine ⟨hlies, ?_⟩
  have hrest : (Lexer.ofSource source).cursor.rest.length = source.length + 1 := by
    simp [Lexer.ofSource, String.length_toList]
  rw [hrest] at hlength
  exact Nat.lt_succ_iff.mp hlength

theorem tokens_ofSource_answer (source : String) :
    (Lexer.ofSource source).tokens.answer = (sourceStream source).collected :=
  Lexer.tokens_answer rfl

theorem tokens_ofSource_eq_error_iff {source : String} {e : LexError} :
    (Lexer.ofSource source).tokens.answer = .error e ↔ (sourceStream source).error = some e := by
  rw [tokens_ofSource_answer]
  rcases sourceStream source with ⟨ts, _ | e'⟩ <;> simp [Stream.collected]

theorem tokens_ofSource_eq_ok_iff {source : String} {ts : List Token} :
    (Lexer.ofSource source).tokens.answer = .ok ts ↔ sourceStream source = ⟨ts, none⟩ :=
  Lexer.tokens_answer_eq_ok_iff rfl

/-- A result, and what is observed of it. -/
theorem exists_of_map_toOption {ε α β : Type} {x : Except ε α} {f : α → β} {b : β}
    (h : x.toOption.map f = some b) : ∃ a, x = .ok a ∧ f a = b := by
  cases x with
  | ok a => exact ⟨a, rfl, Option.some.inj h⟩
  | error e => cases h

end ThreeAddress
