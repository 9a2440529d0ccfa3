import ThreeAddress.Proofs.Lexer.Calls

/-!
# A lexer is a cursor over its tokens

A lexer hides three things that move: the cursor in the source, the token that may be given back,
and the token that waits. To a caller they are one index into the list of the tokens, and a mark
that says what `retract` will do next (`TokenCursor`). Taking a token moves the index on, looking at
one leaves it alone, and giving one back moves it by one to the left. The source does not come into
it.

`Lexer.Tracks` relates the two. What it asks of the lexer is the stream that is still to come, and
what the slot of the machine says about the two tokens. One call keeps it and gets the same answer
(`Lexer.Tracks.agrees`), unless the call meets a lexical error, and so does any list of calls. Of
the four calls only `next` and `retract` have to be looked into: an item is a token as long as
nothing has gone wrong, and to look at a token is to take it and give it back
(`Lexer.peek_eq_next_retract`).

The log tells when the automaton ran. The tokens that it reports in the course of the calls are a
beginning of the list of the tokens (`Lexer.Tracks.answers_eq`), so none is ever cut out of the
source twice.
-/

namespace ThreeAddress

/-! ## 1. Answers -/

inductive LexerAnswer where
  | token (token : Option Token)
  | lexical (error : LexError)
  | retracted
  | refused (error : RetractError)
deriving Repr, DecidableEq

namespace LexerAnswer

def ofResult : Except LexError (Option Token) → LexerAnswer
  | .ok t => token t
  | .error e => lexical e

def ofItem : Option (Except LexError Token) → LexerAnswer
  | none => token none
  | some (.ok t) => token (some t)
  | some (.error e) => lexical e

def ofRetraction : Except RetractError Unit → LexerAnswer
  | .ok () => retracted
  | .error e => refused e

end LexerAnswer

/-- The token that an event says was cut out of the source. -/
def Event.scanned? : Event → Option Token
  | .scanned t => some t
  | _ => none

namespace Lexer

def answer (l : Lexer) : LexerCall → LexerAnswer
  | .next => .ofResult l.next.answer
  | .item => .ofItem l.item.answer
  | .peek => .ofResult l.peek.answer
  | .retract => .ofRetraction l.retract.answer

def events (l : Lexer) : LexerCall → List Event
  | .next => l.next.events
  | .item => l.item.events
  | .peek => l.peek.events
  | .retract => l.retract.events

def answers (l : Lexer) : List LexerCall → List LexerAnswer
  | [] => []
  | call :: calls => l.answer call :: (l.after call).answers calls

/-- The tokens that the automaton cuts out in the course of some calls. -/
def scanned (l : Lexer) : List LexerCall → List Token
  | [] => []
  | call :: calls => (l.events call).filterMap Event.scanned? ++ (l.after call).scanned calls

end Lexer

/-! ## 2. The machine -/

/-- What may be given back: nothing, the token before the index, or nothing because the token at the
index waits already. -/
inductive Slot where
  | nothing
  | retractable
  | pushed
deriving Repr, DecidableEq

/-- A place in a list of tokens. -/
structure TokenCursor where
  index : Nat := 0
  slot : Slot := .nothing
deriving Repr, DecidableEq

namespace TokenCursor

def answer (ts : List Token) (k : TokenCursor) : LexerCall → LexerAnswer
  | .next | .item | .peek => .token ts[k.index]?
  | .retract =>
    match k.slot with
    | .retractable => .retracted
    | .pushed => .refused .alreadyRetracted
    | .nothing => .refused .nothingToRetract

def after (ts : List Token) (k : TokenCursor) : LexerCall → TokenCursor
  | .next | .item =>
    if k.index < ts.length then ⟨k.index + 1, .retractable⟩ else ⟨k.index, .nothing⟩
  | .peek => if k.index < ts.length then ⟨k.index, .pushed⟩ else ⟨k.index, .nothing⟩
  | .retract => if k.slot = .retractable then ⟨k.index - 1, .pushed⟩ else k

def afterAll (ts : List Token) (k : TokenCursor) (calls : List LexerCall) : TokenCursor :=
  calls.foldl (after ts) k

def answers (ts : List Token) (k : TokenCursor) : List LexerCall → List LexerAnswer
  | [] => []
  | call :: calls => k.answer ts call :: (k.after ts call).answers ts calls

/-- How many tokens have been cut out of the source. A token that waits is one of them. -/
def read (k : TokenCursor) : Nat :=
  if k.slot = .pushed then k.index + 1 else k.index

variable {ts : List Token} {k : TokenCursor} {t : Token}

theorem after_next_of_some (h : ts[k.index]? = some t) :
    k.after ts .next = ⟨k.index + 1, .retractable⟩ := by
  have hlt : k.index < ts.length := (List.getElem?_eq_some_iff.mp h).1
  simp [after, hlt]

theorem after_next_of_none (h : ts[k.index]? = none) : k.after ts .next = ⟨k.index, .nothing⟩ := by
  have hle : ts.length ≤ k.index := List.getElem?_eq_none_iff.mp h
  simp [after, hle]

theorem after_peek (ts : List Token) (k : TokenCursor) :
    k.after ts .peek = (k.after ts .next).after ts .retract := by
  simp only [after]
  split <;> simp

theorem read_of_pushed (h : k.slot = .pushed) : k.read = k.index + 1 := by
  simp [read, h]

theorem read_of_ne_pushed (h : k.slot ≠ .pushed) : k.read = k.index := by
  simp [read, h]

end TokenCursor

/-! ## 3. The lexer and the machine -/

/-- What the slot says about a lexer at an index of its tokens. -/
def Slot.Fits (ts : List Token) (index : Nat) (l : Lexer) : Slot → Prop
  | nothing => l.pushback = none ∧ l.last = none
  | retractable => l.pushback = none ∧ 0 < index ∧ ∃ t, ts[index - 1]? = some t ∧ l.last = some t
  | pushed => ∃ t, l.pushback = some t

/-- The lexer is where the machine is, in a source with the given stream. -/
structure Lexer.Tracks (x : Stream) (l : Lexer) (k : TokenCursor) : Prop where
  stream : l.stream = ⟨x.tokens.drop k.index, x.error⟩
  sound : l.poisoned = false
  slot : k.slot.Fits x.tokens k.index l

/-- What lies ahead of a lexer: a token that waits, or what the automaton will find. -/
inductive Lexer.Ahead (x : Stream) (l : Lexer) (k : TokenCursor) : Prop where
  | waiting {t : Token} (hpush : l.pushback = some t) (hslot : k.slot = .pushed)
      (hget : x.tokens[k.index]? = some t)
      (hrest : l.cursor.stream = ⟨x.tokens.drop (k.index + 1), x.error⟩)
  | scanned {t : Token} {c : Cursor} (hpush : l.pushback = none) (hslot : k.slot ≠ .pushed)
      (hscan : l.cursor.scan = (.token t, c)) (hget : x.tokens[k.index]? = some t)
      (hrest : c.stream = ⟨x.tokens.drop (k.index + 1), x.error⟩)
  | ended {st : LexState} {c : Cursor} (hpush : l.pushback = none) (hslot : k.slot ≠ .pushed)
      (hscan : l.cursor.scan = (.ended st, c)) (hget : x.tokens[k.index]? = none)
      (hrest : c.stream = ⟨x.tokens.drop k.index, x.error⟩)
  | failed {e : LexError} {c : Cursor} (hpush : l.pushback = none)
      (hscan : l.cursor.scan = (.failed e, c))

theorem take_add_one_of_getElem? {ts : List Token} {i : Nat} {t : Token} (h : ts[i]? = some t) :
    ts.take (i + 1) = ts.take i ++ [t] := by
  rw [List.take_add_one, h]
  rfl

theorem getElem?_of_drop_eq_cons {ts rest : List Token} {i : Nat} {t : Token}
    (h : ts.drop i = t :: rest) : ts[i]? = some t ∧ ts.drop (i + 1) = rest := by
  have hget : (ts.drop i)[0]? = some t := by rw [h]; rfl
  have htail : (ts.drop i).tail = rest := by rw [h]; rfl
  rw [List.getElem?_drop, Nat.add_zero] at hget
  rw [List.tail_drop] at htail
  exact ⟨hget, htail⟩

namespace Lexer

variable {x : Stream} {l : Lexer} {k : TokenCursor}

theorem Tracks.slot_ne_pushed (h : Tracks x l k) (hpush : l.pushback = none) :
    k.slot ≠ .pushed := by
  intro hslot
  have hfits := h.slot
  rw [hslot] at hfits
  obtain ⟨t, ht⟩ := hfits
  rw [hpush] at ht
  cases ht

theorem Tracks.slot_eq_pushed (h : Tracks x l k) {t : Token} (hpush : l.pushback = some t) :
    k.slot = .pushed := by
  have hfits := h.slot
  cases hslot : k.slot with
  | pushed => rfl
  | nothing | retractable =>
    rw [hslot] at hfits
    have hnone := hfits.1
    rw [hpush] at hnone
    cases hnone

theorem Tracks.ahead (h : Tracks x l k) : Ahead x l k := by
  have hstream := h.stream
  rw [Lexer.stream] at hstream
  cases hpush : l.pushback with
  | some t =>
    rw [hpush] at hstream
    obtain ⟨hdrop, herror⟩ := Stream.mk.inj hstream
    obtain ⟨hget, hrest⟩ := getElem?_of_drop_eq_cons hdrop.symm
    exact .waiting hpush (h.slot_eq_pushed hpush) hget (by rw [hrest, ← herror])
  | none =>
    rw [hpush] at hstream
    rcases hscan : l.cursor.scan with ⟨s, c⟩
    cases s with
    | token t =>
      rw [Cursor.stream_of_token hscan] at hstream
      obtain ⟨hdrop, herror⟩ := Stream.mk.inj hstream
      obtain ⟨hget, hrest⟩ := getElem?_of_drop_eq_cons hdrop.symm
      exact .scanned hpush (h.slot_ne_pushed hpush) hscan hget (by rw [hrest, ← herror])
    | ended st =>
      rw [Cursor.stream_of_ended hscan] at hstream
      have hnil := (Stream.mk.inj hstream).1
      have hget : x.tokens[k.index]? = none :=
        List.getElem?_eq_none (List.drop_eq_nil_iff.mp hnil.symm)
      refine .ended hpush (h.slot_ne_pushed hpush) hscan hget ?_
      rw [← hstream]
      exact Cursor.stream_of_rest_nil (Cursor.rest_of_ended hscan)
    | failed e => exact .failed hpush hscan

/-- The call gets the same answer from the lexer and from the machine, and leaves them at the same
place. What the automaton cuts out is what the machine has read since. -/
structure Agrees (x : Stream) (l : Lexer) (k : TokenCursor) (call : LexerCall) : Prop where
  answer : l.answer call = k.answer x.tokens call
  tracks : Tracks x (l.after call) (k.after x.tokens call)
  scanned : x.tokens.take k.read ++ (l.events call).filterMap Event.scanned? =
    x.tokens.take (k.after x.tokens call).read

theorem Tracks.next (h : Tracks x l k) (hanswer : ∀ e, l.answer .next ≠ .lexical e) :
    Agrees x l k .next := by
  cases h.ahead with
  | @waiting t hpush hslot hget hrest =>
    have hnext : l.next = ⟨.ok (some t), ⟨l.cursor, some t, none, l.poisoned⟩, []⟩ := by
      simp only [Lexer.next, hpush]
    have htracks : Tracks x ⟨l.cursor, some t, none, l.poisoned⟩ ⟨k.index + 1, .retractable⟩ :=
      ⟨hrest, h.sound, rfl, Nat.succ_pos _, t, hget, rfl⟩
    refine ⟨?_, ?_, ?_⟩
    · simp [Lexer.answer, hnext, TokenCursor.answer, hget, LexerAnswer.ofResult]
    · rwa [TokenCursor.after_next_of_some hget, Lexer.after, hnext]
    · rw [TokenCursor.after_next_of_some hget, TokenCursor.read_of_pushed hslot, events, hnext]
      simp [TokenCursor.read]
  | @scanned t c hpush hslot hscan hget hrest =>
    have hnext : l.next = ⟨.ok (some t), ⟨c, some t, none, l.poisoned⟩, [.scanned t]⟩ := by
      simp only [Lexer.next, hpush, Lexer.scan, hscan]
    have htracks : Tracks x ⟨c, some t, none, l.poisoned⟩ ⟨k.index + 1, .retractable⟩ :=
      ⟨hrest, h.sound, rfl, Nat.succ_pos _, t, hget, rfl⟩
    refine ⟨?_, ?_, ?_⟩
    · simp [Lexer.answer, hnext, TokenCursor.answer, hget, LexerAnswer.ofResult]
    · rwa [TokenCursor.after_next_of_some hget, Lexer.after, hnext]
    · rw [TokenCursor.after_next_of_some hget, TokenCursor.read_of_ne_pushed hslot, events, hnext]
      exact (take_add_one_of_getElem? hget).symm
  | @ended st c hpush hslot hscan hget hrest =>
    have hnext : l.next = ⟨.ok none, ⟨c, none, none, l.poisoned⟩, []⟩ := by
      simp only [Lexer.next, hpush, Lexer.scan, hscan]
    have htracks : Tracks x ⟨c, none, none, l.poisoned⟩ ⟨k.index, .nothing⟩ :=
      ⟨hrest, h.sound, rfl, rfl⟩
    refine ⟨?_, ?_, ?_⟩
    · simp [Lexer.answer, hnext, TokenCursor.answer, hget, LexerAnswer.ofResult]
    · rwa [TokenCursor.after_next_of_none hget, Lexer.after, hnext]
    · rw [TokenCursor.after_next_of_none hget, TokenCursor.read_of_ne_pushed hslot, events, hnext]
      simp [TokenCursor.read]
  | @failed e c hpush hscan =>
    refine absurd ?_ (hanswer e)
    simp [Lexer.answer, Lexer.next, hpush, Lexer.scan, hscan, LexerAnswer.ofResult]

theorem item_of_sound (h : l.poisoned = false) :
    l.answer .item = l.answer .next ∧ l.after .item = l.after .next ∧
      l.events .item = l.events .next := by
  simp only [answer, after, events, item, h]
  rcases l.next with ⟨(_ | _ | _), l', events⟩ <;> exact ⟨rfl, rfl, rfl⟩

theorem Tracks.item (h : Tracks x l k) (hanswer : ∀ e, l.answer .item ≠ .lexical e) :
    Agrees x l k .item := by
  obtain ⟨hsame, hafter, hevents⟩ := item_of_sound h.sound
  rw [hsame] at hanswer
  have hnext := h.next hanswer
  refine ⟨?_, ?_, ?_⟩
  · rw [hsame]
    exact hnext.answer
  · rw [hafter]
    exact hnext.tracks
  · rw [hevents]
    exact hnext.scanned

theorem Tracks.refused (h : Tracks x l k) {e : RetractError}
    (hretract : l.retract = ⟨.error e, l, []⟩)
    (hanswer : k.answer x.tokens .retract = .refused e) (hslot : k.slot ≠ .retractable) :
    Agrees x l k .retract := by
  have hk : k.after x.tokens .retract = k := by simp [TokenCursor.after, hslot]
  refine ⟨?_, ?_, ?_⟩
  · rw [hanswer, Lexer.answer, hretract, LexerAnswer.ofRetraction]
  · rwa [hk, Lexer.after, hretract]
  · simp [hk, events, hretract]

theorem Tracks.retract (h : Tracks x l k) : Agrees x l k .retract := by
  have hfits := h.slot
  cases hslot : k.slot with
  | nothing =>
    rw [hslot] at hfits
    obtain ⟨hpush, hlast⟩ := hfits
    have hretract : l.retract = ⟨.error .nothingToRetract, l, []⟩ := by
      simp only [Lexer.retract, hpush, hlast]
    exact h.refused hretract (by simp [TokenCursor.answer, hslot]) (by simp [hslot])
  | pushed =>
    rw [hslot] at hfits
    obtain ⟨t, hpush⟩ := hfits
    have hretract : l.retract = ⟨.error .alreadyRetracted, l, []⟩ := by
      simp only [Lexer.retract, hpush]
    exact h.refused hretract (by simp [TokenCursor.answer, hslot]) (by simp [hslot])
  | retractable =>
    rw [hslot] at hfits
    obtain ⟨hpush, hpos, t, hget, hlast⟩ := hfits
    have hretract : l.retract = ⟨.ok (), ⟨l.cursor, none, some t, l.poisoned⟩, [.retracted t]⟩ := by
      simp only [Lexer.retract, hpush, hlast]
    have hk : k.after x.tokens .retract = ⟨k.index - 1, .pushed⟩ := by
      simp [TokenCursor.after, hslot]
    obtain ⟨hlt, hget⟩ := List.getElem?_eq_some_iff.mp hget
    have htracks : Tracks x ⟨l.cursor, none, some t, l.poisoned⟩ ⟨k.index - 1, .pushed⟩ := by
      refine ⟨?_, h.sound, t, rfl⟩
      have hstream := h.stream
      rw [Lexer.stream, hpush] at hstream
      rw [List.drop_eq_getElem_cons hlt, hget, Nat.sub_add_cancel hpos, Lexer.stream]
      exact congrArg (Stream.cons t) hstream
    refine ⟨?_, ?_, ?_⟩
    · simp [Lexer.answer, hretract, TokenCursor.answer, hslot, LexerAnswer.ofRetraction]
    · rwa [hk, Lexer.after, hretract]
    · rw [hk, TokenCursor.read_of_ne_pushed (by simp [hslot]), TokenCursor.read_of_pushed rfl,
        Nat.sub_add_cancel hpos, events, hretract]
      exact List.append_nil _

/-- Looking at a token is taking it and giving it back, except that nothing is said about it. -/
theorem peek_eq_next_retract (hanswer : ∀ e, l.answer .peek ≠ .lexical e) :
    l.answer .peek = l.answer .next ∧ l.after .peek = (l.after .next).after .retract ∧
      l.events .peek = l.events .next := by
  obtain ⟨cursor, last, pushback, poisoned⟩ := l
  cases pushback with
  | some t => exact ⟨rfl, rfl, rfl⟩
  | none =>
    rcases hscan : cursor.scan with ⟨s, c⟩
    cases s with
    | token t =>
      simp [answer, after, events, Lexer.next, Lexer.peek, Lexer.retract, Lexer.scan, hscan]
    | ended st =>
      simp [answer, after, events, Lexer.next, Lexer.peek, Lexer.retract, Lexer.scan, hscan]
    | failed e =>
      refine absurd ?_ (hanswer e)
      simp [answer, Lexer.peek, Lexer.scan, hscan, LexerAnswer.ofResult]

theorem scanned_retract (l : Lexer) : (l.events .retract).filterMap Event.scanned? = [] := by
  rw [events, Lexer.retract]
  split <;> rfl

theorem Tracks.peek (h : Tracks x l k) (hanswer : ∀ e, l.answer .peek ≠ .lexical e) :
    Agrees x l k .peek := by
  obtain ⟨hsame, hafter, hevents⟩ := peek_eq_next_retract hanswer
  rw [hsame] at hanswer
  have hnext := h.next hanswer
  have hback := hnext.tracks.retract
  refine ⟨?_, ?_, ?_⟩
  · rw [hsame]
    exact hnext.answer
  · rw [hafter, TokenCursor.after_peek]
    exact hback.tracks
  · have hscanned := hback.scanned
    rw [scanned_retract, List.append_nil] at hscanned
    rw [hevents, TokenCursor.after_peek, hnext.scanned, hscanned]

/-- **One call**: the lexer and the machine answer alike and stay together. -/
theorem Tracks.agrees (h : Tracks x l k) {call : LexerCall}
    (hanswer : ∀ e, l.answer call ≠ .lexical e) : Agrees x l k call := by
  cases call with
  | next => exact h.next hanswer
  | item => exact h.item hanswer
  | peek => exact h.peek hanswer
  | retract => exact h.retract

theorem Tracks.answers_eq (h : Tracks x l k) {calls : List LexerCall}
    (hanswers : ∀ e, .lexical e ∉ l.answers calls) :
    l.answers calls = k.answers x.tokens calls ∧
      x.tokens.take k.read ++ l.scanned calls = x.tokens.take (k.afterAll x.tokens calls).read := by
  induction calls generalizing l k with
  | nil => exact ⟨rfl, List.append_nil _⟩
  | cons call calls ih =>
    simp only [answers, List.mem_cons, not_or] at hanswers
    have hagrees := h.agrees fun e heq => (hanswers e).1 heq.symm
    obtain ⟨hrest, hscanned⟩ := ih hagrees.tracks fun e => (hanswers e).2
    constructor
    · rw [answers, TokenCursor.answers, hagrees.answer, hrest]
    · rw [scanned, ← List.append_assoc, hagrees.scanned, hscanned]
      rfl

theorem tracks_ofSource (source : String) : Tracks (sourceStream source) (ofSource source) {} :=
  ⟨rfl, rfl, rfl, rfl⟩

/-- **A lexer refines a cursor over the list of its tokens.** As long as no call meets a lexical
error, any calls in any order get the answers of the cursor; and the automaton cuts the tokens out
one by one, each of them once. -/
theorem refines_tokenCursor (source : String) :
    ∃ x, (ofSource source).Yields x ∧ ∀ calls, (∀ e, .lexical e ∉ (ofSource source).answers calls) →
      (ofSource source).answers calls = TokenCursor.answers x.tokens {} calls ∧
      (ofSource source).scanned calls =
        x.tokens.take (TokenCursor.afterAll x.tokens {} calls).read := by
  refine ⟨sourceStream source, (ofSource source).yields_stream, fun calls hanswers => ?_⟩
  obtain ⟨hanswer, hscanned⟩ := (tracks_ofSource source).answers_eq hanswers
  exact ⟨hanswer, by simpa [TokenCursor.read] using hscanned⟩

/-- All four calls and both refusals, in a source that goes wrong after its second token. -/
theorem refines_tokenCursor_mixed :
    ∃ x, (ofSource "a b 1c").Yields x ∧
      (∀ e, .lexical e ∉ (ofSource "a b 1c").answers
        [.retract, .peek, .retract, .next, .retract, .item, .peek, .next, .retract]) ∧
      (ofSource "a b 1c").answers
          [.retract, .peek, .retract, .next, .retract, .item, .peek, .next, .retract] =
        TokenCursor.answers x.tokens {}
          [.retract, .peek, .retract, .next, .retract, .item, .peek, .next, .retract] := by
  have hanswers : (ofSource "a b 1c").answers
      [.retract, .peek, .retract, .next, .retract, .item, .peek, .next, .retract] =
      [.refused .nothingToRetract, .token (some ⟨⟨0, 1⟩, .identifier, "a"⟩),
        .refused .alreadyRetracted, .token (some ⟨⟨0, 1⟩, .identifier, "a"⟩), .retracted,
        .token (some ⟨⟨0, 1⟩, .identifier, "a"⟩), .token (some ⟨⟨2, 1⟩, .identifier, "b"⟩),
        .token (some ⟨⟨2, 1⟩, .identifier, "b"⟩), .retracted] := by decide +kernel
  have hnone : ∀ e, .lexical e ∉ (ofSource "a b 1c").answers
      [.retract, .peek, .retract, .next, .retract, .item, .peek, .next, .retract] := by
    rw [hanswers]
    simp
  obtain ⟨x, hyields, hrefines⟩ := refines_tokenCursor "a b 1c"
  exact ⟨x, hyields, hnone, (hrefines _ hnone).1⟩

end Lexer

end ThreeAddress
