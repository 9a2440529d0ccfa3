import Mathlib.Data.List.Induction
import ThreeAddress.Proofs.Lexer.TokenCursor

/-!
# When a token can be given back

A token is to be given back right after it was handed out. The lexer keeps it for that in `last`,
and every call is to say anew what `last` is. Two exits do not: a call that meets a lexical error
returns before it comes to `last`, and an item that is asked for after such an error is refused at
the door. After them the token of an earlier call can still be given back
(`Lexer.retract_skips_failed_call`).

So what decides is the last call that came to something. One call either hands out a token, or comes
to nothing and leaves things as they were, or takes the offer back (`Lexer.offers_after`); a run of
calls follows by induction on its last call. All of it can be seen from outside: whether the lexer
is poisoned is whether one of its answers was a lexical error (`Lexer.poisoned_afterAll_iff`).
-/

namespace ThreeAddress

namespace Lexer

variable {l : Lexer}

/-! ## 1. One call -/

/-- A token can be given back. -/
def Offers (l : Lexer) : Prop :=
  l.pushback = none ∧ l.last ≠ none

/-- The call asks for a token to keep. -/
def Takes (call : LexerCall) : Prop :=
  call = .next ∨ call = .item

theorem retract_of_offers (h : l.Offers) : l.answer .retract = .retracted := by
  obtain ⟨hpush, hlast⟩ := h
  obtain ⟨t, hlast⟩ := Option.ne_none_iff_exists'.mp hlast
  simp [answer, Lexer.retract, hpush, hlast, LexerAnswer.ofRetraction]

theorem retract_of_not_offers (h : ¬l.Offers) :
    (∃ error, l.answer .retract = .refused error) ∧ l.after .retract = l := by
  cases hpush : l.pushback with
  | some t => simp [answer, after, Lexer.retract, hpush, LexerAnswer.ofRetraction]
  | none =>
    have hlast : l.last = none := by
      by_contra hsome
      exact h ⟨hpush, hsome⟩
    simp [answer, after, Lexer.retract, hpush, hlast, LexerAnswer.ofRetraction]

theorem retract_iff_offers : l.answer .retract = .retracted ↔ l.Offers := by
  refine ⟨fun hanswer => ?_, retract_of_offers⟩
  by_contra hnot
  obtain ⟨⟨error, herror⟩, -⟩ := retract_of_not_offers hnot
  rw [herror] at hanswer
  cases hanswer

/-- The call meets a lexical error, or it is for an item and there are none any more. -/
def ComesToNothing (l : Lexer) (call : LexerCall) : Prop :=
  (∃ e, l.answer call = .lexical e) ∨ (call = .item ∧ l.poisoned = true)

theorem offers_after_next : (l.after .next).Offers ↔
    (∃ t, l.answer .next = .token (some t)) ∨ ((∃ e, l.answer .next = .lexical e) ∧ l.Offers) := by
  obtain ⟨cursor, last, pushback, poisoned⟩ := l
  cases pushback with
  | some t => simp [after, answer, Lexer.next, Offers, LexerAnswer.ofResult]
  | none =>
    rcases hscan : cursor.scan with ⟨s, c⟩
    cases s <;> simp [after, answer, Lexer.next, Lexer.scan, hscan, Offers, LexerAnswer.ofResult]

theorem offers_after_peek :
    (l.after .peek).Offers ↔ (∃ e, l.answer .peek = .lexical e) ∧ l.Offers := by
  obtain ⟨cursor, last, pushback, poisoned⟩ := l
  cases pushback with
  | some t => simp [after, answer, Lexer.peek, Offers, LexerAnswer.ofResult]
  | none =>
    rcases hscan : cursor.scan with ⟨s, c⟩
    cases s <;> simp [after, answer, Lexer.peek, Lexer.scan, hscan, Offers, LexerAnswer.ofResult]

theorem item_of_poisoned (h : l.poisoned = true) :
    l.after .item = l ∧ l.answer .item = .token none := by
  simp [after, answer, Lexer.item, h, LexerAnswer.ofItem]

theorem not_offers_after_retract : ¬(l.after .retract).Offers := by
  by_cases h : l.Offers
  · obtain ⟨hpush, hlast⟩ := h
    obtain ⟨t, hlast⟩ := Option.ne_none_iff_exists'.mp hlast
    simp [after, Lexer.retract, hpush, hlast, Offers]
  · rwa [(retract_of_not_offers h).2]

theorem answer_retract_ne_lexical (l : Lexer) (e : LexError) : l.answer .retract ≠ .lexical e := by
  rcases h : l.retract.answer with _ | _ <;> simp [answer, h, LexerAnswer.ofRetraction]

/-- **What a call does to the offer**: a token that is handed out makes one, a call that comes to
nothing leaves it alone, and any other call takes it back. -/
theorem offers_after (l : Lexer) (call : LexerCall) : (l.after call).Offers ↔
    (Takes call ∧ ∃ t, l.answer call = .token (some t)) ∨ (l.ComesToNothing call ∧ l.Offers) := by
  cases call with
  | next => simp [offers_after_next, Takes, ComesToNothing]
  | item =>
    cases hpoisoned : l.poisoned with
    | true => simp [item_of_poisoned hpoisoned, Takes, ComesToNothing, hpoisoned]
    | false =>
      obtain ⟨hanswer, hafter, -⟩ := item_of_sound hpoisoned
      simp [hafter, hanswer, offers_after_next, Takes, ComesToNothing, hpoisoned]
  | peek => simp [offers_after_peek, Takes, ComesToNothing]
  | retract => simp [not_offers_after_retract, Takes, ComesToNothing, answer_retract_ne_lexical]

theorem poisoned_after_next : (l.after .next).poisoned = true ↔
    l.poisoned = true ∨ ∃ e, l.answer .next = .lexical e := by
  obtain ⟨cursor, last, pushback, poisoned⟩ := l
  cases pushback with
  | some t => simp [after, answer, Lexer.next, LexerAnswer.ofResult]
  | none =>
    rcases hscan : cursor.scan with ⟨s, c⟩
    cases s <;> simp [after, answer, Lexer.next, Lexer.scan, hscan, LexerAnswer.ofResult]

theorem poisoned_after_peek : (l.after .peek).poisoned = true ↔
    l.poisoned = true ∨ ∃ e, l.answer .peek = .lexical e := by
  obtain ⟨cursor, last, pushback, poisoned⟩ := l
  cases pushback with
  | some t => simp [after, answer, Lexer.peek, LexerAnswer.ofResult]
  | none =>
    rcases hscan : cursor.scan with ⟨s, c⟩
    cases s <;> simp [after, answer, Lexer.peek, Lexer.scan, hscan, LexerAnswer.ofResult]

theorem poisoned_after_retract : (l.after .retract).poisoned = l.poisoned := by
  rw [after, Lexer.retract]
  split <;> rfl

/-- A lexer is poisoned by the first lexical error, and for good. -/
theorem poisoned_after (l : Lexer) (call : LexerCall) :
    (l.after call).poisoned = true ↔ l.poisoned = true ∨ ∃ e, l.answer call = .lexical e := by
  cases call with
  | next => exact poisoned_after_next
  | item =>
    cases hpoisoned : l.poisoned with
    | true => simp [item_of_poisoned hpoisoned, hpoisoned]
    | false =>
      obtain ⟨hanswer, hafter, -⟩ := item_of_sound hpoisoned
      rw [hafter, hanswer, poisoned_after_next, hpoisoned]
  | peek => exact poisoned_after_peek
  | retract => simp [poisoned_after_retract, answer_retract_ne_lexical]

/-! ## 2. Any calls -/

theorem afterAll_concat (l : Lexer) (calls : List LexerCall) (call : LexerCall) :
    l.afterAll (calls ++ [call]) = (l.afterAll calls).after call := by
  simp [afterAll, List.foldl_append]

theorem answers_concat (l : Lexer) (calls : List LexerCall) (call : LexerCall) :
    l.answers (calls ++ [call]) = l.answers calls ++ [(l.afterAll calls).answer call] := by
  induction calls generalizing l with
  | nil => rfl
  | cons first calls ih =>
    rw [List.cons_append, answers, answers, ih]
    rfl

theorem length_answers (l : Lexer) (calls : List LexerCall) :
    (l.answers calls).length = calls.length := by
  induction calls generalizing l with
  | nil => rfl
  | cons call calls ih => rw [answers, List.length_cons, List.length_cons, ih]

/-- Whether a lexer is poisoned can be told from its answers. -/
theorem poisoned_afterAll_iff (hsound : l.poisoned = false) (calls : List LexerCall) :
    (l.afterAll calls).poisoned = true ↔ ∃ e, .lexical e ∈ l.answers calls := by
  induction calls using List.reverseRecOn with
  | nil => simp [afterAll, answers, hsound]
  | append_singleton calls call ih =>
    rw [afterAll_concat, poisoned_after, ih, answers_concat, ← exists_or]
    simp only [List.mem_append, List.mem_singleton, eq_comm]

/-- The call at `m` came to nothing, as the calls and their answers show: it met a lexical error, or
it was for an item and there had been such an error. -/
def Fruitless (calls : List LexerCall) (answers : List LexerAnswer) (m : Nat) : Prop :=
  (∃ e, answers[m]? = some (.lexical e)) ∨
    (calls[m]? = some .item ∧ ∃ j e, j < m ∧ answers[j]? = some (.lexical e))

/-- The last call that came to something handed out a token. -/
def HandedOut (calls : List LexerCall) (answers : List LexerAnswer) : Prop :=
  ∃ k t, (calls[k]? = some .next ∨ calls[k]? = some .item) ∧ answers[k]? = some (.token (some t)) ∧
    ∀ m, k < m → m < calls.length → Fruitless calls answers m

section

variable {calls : List LexerCall} {answers : List LexerAnswer}
  (hlength : answers.length = calls.length) (call : LexerCall) (answer : LexerAnswer)

include hlength

/-- What a call came to is not changed by later ones. -/
theorem fruitless_concat_of_lt {m : Nat} (hm : m < calls.length) :
    Fruitless (calls ++ [call]) (answers ++ [answer]) m ↔ Fruitless calls answers m := by
  have hbefore : ∀ j, j ≤ m → (answers ++ [answer])[j]? = answers[j]? := fun j hj =>
    List.getElem?_append_left (by omega)
  unfold Fruitless
  rw [hbefore m (Nat.le_refl m), List.getElem?_append_left hm]
  refine or_congr Iff.rfl (and_congr Iff.rfl (exists_congr fun j => exists_congr fun e => ?_))
  refine and_congr_right fun hj => ?_
  rw [hbefore j (Nat.le_of_lt hj)]

theorem fruitless_concat_length :
    Fruitless (calls ++ [call]) (answers ++ [answer]) calls.length ↔
      (∃ e, answer = .lexical e) ∨ (call = .item ∧ ∃ e, .lexical e ∈ answers) := by
  unfold Fruitless
  rw [List.getElem?_concat_length, ← hlength, List.getElem?_concat_length, Option.some_inj]
  simp only [Option.some_inj]
  refine or_congr Iff.rfl (and_congr Iff.rfl ?_)
  constructor
  · rintro ⟨j, e, hj, hget⟩
    rw [List.getElem?_append_left hj] at hget
    exact ⟨e, List.mem_of_getElem? hget⟩
  · rintro ⟨e, hmem⟩
    obtain ⟨j, hj, hget⟩ := List.getElem_of_mem hmem
    exact ⟨j, e, hj, by rw [List.getElem?_append_left hj, List.getElem?_eq_getElem hj, hget]⟩

theorem handedOut_concat :
    HandedOut (calls ++ [call]) (answers ++ [answer]) ↔
      (Takes call ∧ ∃ t, answer = .token (some t)) ∨
      (((∃ e, answer = .lexical e) ∨ (call = .item ∧ ∃ e, .lexical e ∈ answers)) ∧
        HandedOut calls answers) := by
  constructor
  · rintro ⟨k, t, hcall, hanswer, hafter⟩
    have hk : k < (answers ++ [answer]).length := (List.getElem?_eq_some_iff.mp hanswer).1
    rw [List.length_append, List.length_singleton, hlength] at hk
    rcases Nat.lt_or_eq_of_le (Nat.le_of_lt_succ hk) with hk | rfl
    · -- the token is older than the last call, which came to nothing
      rw [List.getElem?_append_left hk] at hcall
      rw [List.getElem?_append_left (by omega)] at hanswer
      refine .inr ⟨?_, k, t, hcall, hanswer, fun m hkm hm => ?_⟩
      · exact (fruitless_concat_length hlength call answer).mp (hafter _ hk (by simp))
      · exact (fruitless_concat_of_lt hlength call answer hm).mp (hafter m hkm (by simp; omega))
    · rw [List.getElem?_concat_length, Option.some_inj, Option.some_inj] at hcall
      rw [← hlength, List.getElem?_concat_length, Option.some_inj] at hanswer
      exact .inl ⟨hcall, t, hanswer⟩
  · rintro (⟨hcall, t, rfl⟩ | ⟨hnothing, k, t, hcall, hanswer, hafter⟩)
    · refine ⟨calls.length, t, ?_, ?_, fun m hlt hm => ?_⟩
      · rwa [List.getElem?_concat_length, Option.some_inj, Option.some_inj]
      · rw [← hlength, List.getElem?_concat_length]
      · rw [List.length_append, List.length_singleton] at hm
        omega
    · have hk : k < answers.length := (List.getElem?_eq_some_iff.mp hanswer).1
      refine ⟨k, t, ?_, ?_, fun m hkm hm => ?_⟩
      · rwa [List.getElem?_append_left (by omega)]
      · rwa [List.getElem?_append_left hk]
      · rw [List.length_append, List.length_singleton] at hm
        rcases Nat.lt_or_eq_of_le (Nat.le_of_lt_succ hm) with hm | rfl
        · exact (fruitless_concat_of_lt hlength call answer hm).mpr (hafter m hkm hm)
        · exact (fruitless_concat_length hlength call answer).mpr hnothing

end

/-- If the call right before came to something, nothing else matters. -/
theorem handedOut_iff_of_not_fruitless {calls : List LexerCall}
    {answers : List LexerAnswer} {k : Nat}
    (hk : k + 1 = calls.length) (hfruit : ¬Fruitless calls answers k) :
    HandedOut calls answers ↔ (calls[k]? = some .next ∨ calls[k]? = some .item) ∧
      ∃ t, answers[k]? = some (.token (some t)) := by
  constructor
  · rintro ⟨j, t, hcall, hanswer, hafter⟩
    have hj : j < calls.length := by
      rcases hcall with hcall | hcall
      · exact (List.getElem?_eq_some_iff.mp hcall).1
      · exact (List.getElem?_eq_some_iff.mp hcall).1
    have hjk : j = k := by
      by_contra hne
      exact hfruit (hafter k (by omega) (by omega))
    subst hjk
    exact ⟨hcall, t, hanswer⟩
  · rintro ⟨hcall, t, hanswer⟩
    exact ⟨k, t, hcall, hanswer, fun m hkm hm => by omega⟩

theorem offers_afterAll_iff (source : String) (calls : List LexerCall) :
    ((ofSource source).afterAll calls).Offers ↔
    HandedOut calls ((ofSource source).answers calls) := by
  induction calls using List.reverseRecOn with
  | nil => simp [afterAll, ofSource, Offers, HandedOut]
  | append_singleton calls call ih =>
    rw [afterAll_concat, offers_after, ih, answers_concat, handedOut_concat (length_answers ..),
      ComesToNothing, poisoned_afterAll_iff rfl]

/-- **A token can be given back exactly if the last call that came to something handed it out.**
Otherwise the request is refused, and changes nothing. If the call right before came to something,
it is the one that counts. -/
theorem retract_follows_last_token (source : String) (calls : List LexerCall) :
    (((ofSource source).afterAll calls).answer .retract = .retracted ↔
      HandedOut calls ((ofSource source).answers calls)) ∧
    (¬HandedOut calls ((ofSource source).answers calls) →
      (∃ error, ((ofSource source).afterAll calls).answer .retract = .refused error) ∧
      ((ofSource source).afterAll calls).after .retract = (ofSource source).afterAll calls) ∧
    ∀ k, k + 1 = calls.length → ¬Fruitless calls ((ofSource source).answers calls) k →
      (((ofSource source).afterAll calls).answer .retract = .retracted ↔
        (calls[k]? = some .next ∨ calls[k]? = some .item) ∧
        ∃ t, ((ofSource source).answers calls)[k]? = some (.token (some t))) := by
  have hoffers := offers_afterAll_iff source calls
  refine ⟨?_, ?_, fun k hk hfruit => ?_⟩
  · rw [retract_iff_offers, hoffers]
  · rw [← hoffers]
    exact retract_of_not_offers
  · rw [retract_iff_offers, hoffers, handedOut_iff_of_not_fruitless hk hfruit]

/-- The call right before meets a lexical error, and the token before that is given back. -/
theorem retract_skips_failed_call :
    (ofSource "a 1b").answers [.next, .next, .retract] =
      [.token (some ⟨⟨0, 1⟩, .identifier, "a"⟩), .lexical ⟨.letterAfterNumber, 'b', ⟨3, 1⟩⟩,
        .retracted] := by
  decide +kernel

end Lexer

end ThreeAddress
