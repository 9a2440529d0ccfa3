import ThreeAddress.Proofs.Lexer.Calls
import ThreeAddress.Proofs.Lexer.LongestMatch

/-!
# Nothing of a source is lost

A source is what its tokens say and the white space between them. `Covers` says how the two make up
a text: a gap, a token, a gap, a token and so on, and each token knows the bytes that it takes. From
this follow the facts about single tokens. Cutting its span out of the source gives its text
(`Covers.slice_of_mem`), and tokens do not overlap (`Covers.ordered`).

Cutting by longest match makes such a text step by step (`LongestMatch.covers`). Where the source is
malformed, the tokens and gaps lead up to the malformed lexeme.
-/

namespace ThreeAddress

/-! ## 1. Bytes -/

namespace Text

theorem exists_byteSize_cons (c : Char) (cs : List Char) :
    ∃ n, byteSize (c :: cs) = n + 1 ∧ c.utf8Size ≤ n + 1 ∧ n + 1 - c.utf8Size = byteSize cs := by
  have hpos := Char.utf8Size_pos c
  refine ⟨c.utf8Size - 1 + byteSize cs, ?_, by omega, by omega⟩
  simp only [byteSize]
  omega

theorem dropBytes?_append (cs ds : List Char) : dropBytes? (byteSize cs) (cs ++ ds) = some ds := by
  induction cs with
  | nil => cases ds <;> rfl
  | cons c cs ih =>
    obtain ⟨n, hsize, hle, hsub⟩ := exists_byteSize_cons c cs
    rw [hsize, List.cons_append, dropBytes?, if_pos hle, hsub]
    exact ih

theorem takeBytes?_append (cs ds : List Char) : takeBytes? (byteSize cs) (cs ++ ds) = some cs := by
  induction cs with
  | nil => cases ds <;> rfl
  | cons c cs ih =>
    obtain ⟨n, hsize, hle, hsub⟩ := exists_byteSize_cons c cs
    rw [hsize, List.cons_append, takeBytes?, if_pos hle, hsub, ih]
    rfl

theorem slice?_append (cs ds es : List Char) :
    slice? (byteSize cs) (byteSize cs + byteSize ds) (cs ++ (ds ++ es)) = some ds := by
  rw [slice?, if_pos (Nat.le_add_right _ _), dropBytes?_append, Nat.add_sub_cancel_left]
  exact takeBytes?_append ds es

def IsBlank (cs : List Char) : Prop :=
  ∀ c ∈ cs, isWhiteSpace c = true

theorem IsBlank.nil : IsBlank [] := by
  intro c hc
  cases hc

end Text

open Text

/-! ## 2. Tokens and gaps -/

/-- From an offset on, the text is made of the tokens, in their order and at their places, with
white space in front of each of them and behind the last, and then of the rest. -/
inductive Covers : Nat → List Char → List Token → List Char → Prop where
  | rest {offset : Nat} {gap rest : List Char} (hgap : IsBlank gap) :
      Covers offset (gap ++ rest) [] rest
  | token {offset : Nat} {gap text rest : List Char} {t : Token} {ts : List Token}
      (hgap : IsBlank gap)
      (hne : t.text ≠ "") (hspan : t.span = ⟨offset + byteSize gap, byteSize t.text.toList⟩)
      (hmore : Covers (offset + byteSize gap + byteSize t.text.toList) text ts rest) :
      Covers offset (gap ++ (t.text.toList ++ text)) (t :: ts) rest

namespace Covers

variable {offset : Nat} {text rest : List Char} {t : Token} {ts : List Token}

theorem blank {c : Char} (hc : isWhiteSpace c = true)
    (h : Covers (offset + c.utf8Size) text ts rest) : Covers offset (c :: text) ts rest := by
  cases h with
  | @rest _ gap _ hgap =>
    rw [← List.cons_append]
    exact .rest (List.forall_mem_cons.mpr ⟨hc, hgap⟩)
  | @token _ gap _ _ t ts hgap hne hspan hmore =>
    have hsize : offset + c.utf8Size + byteSize gap = offset + byteSize (c :: gap) := by
      rw [byteSize, Nat.add_assoc]
    rw [hsize] at hspan hmore
    rw [← List.cons_append]
    exact .token (List.forall_mem_cons.mpr ⟨hc, hgap⟩) hne hspan hmore

theorem lexeme {cs : List Char} (h : Covers (offset + byteSize cs) text ts rest)
    (hne : String.ofList cs ≠ "") (kind : TokenKind) :
    Covers offset (cs ++ text) (.ofChars offset kind cs :: ts) rest := by
  have hcs : (Token.ofChars offset kind cs).text.toList = cs := String.toList_ofList
  have htoken : Covers offset ([] ++ ((Token.ofChars offset kind cs).text.toList ++ text))
      (.ofChars offset kind cs :: ts) rest := by
    apply Covers.token .nil hne
    · rw [hcs]
      rfl
    · rw [hcs]
      exact h
  rwa [hcs] at htoken

theorem exists_split (h : Covers offset text ts rest) (ht : t ∈ ts) :
    ∃ before after, text = before ++ (t.text.toList ++ after) ∧ t.text ≠ "" ∧
      t.span = ⟨offset + byteSize before, byteSize t.text.toList⟩ := by
  induction h with
  | rest hgap => cases ht
  | @token offset gap text rest u ts hgap hne hspan hmore ih =>
    rcases List.mem_cons.mp ht with rfl | ht
    · exact ⟨gap, text, rfl, hne, hspan⟩
    · obtain ⟨before, after, rfl, hne, hspan⟩ := ih ht
      refine ⟨gap ++ u.text.toList ++ before, after, by simp, hne, ?_⟩
      rw [hspan, byteSize_append, byteSize_append]
      simp only [Nat.add_assoc]

theorem slice_of_mem (h : Covers 0 text ts rest) (ht : t ∈ ts) :
    slice? t.span.offset (t.span.offset + t.span.len) text = some t.text.toList := by
  obtain ⟨before, after, rfl, -, hspan⟩ := h.exists_split ht
  rw [hspan, Nat.zero_add]
  exact slice?_append _ _ _

theorem le_offset (h : Covers offset text ts rest) (ht : t ∈ ts) : offset ≤ t.span.offset := by
  obtain ⟨before, after, -, -, hspan⟩ := h.exists_split ht
  rw [hspan]
  exact Nat.le_add_right _ _

theorem ordered (h : Covers offset text ts rest) :
    ts.Pairwise fun t u => t.span.offset + t.span.len ≤ u.span.offset := by
  induction h with
  | rest hgap => exact .nil
  | token hgap hne hspan hmore ih =>
    refine .cons (fun u hu => ?_) ih
    rw [hspan]
    exact hmore.le_offset hu

end Covers

/-! ## 3. Where a source is refused -/

/-- The error is about a malformed lexeme at an offset. Behind the source there is a space, which
may be the character that does not fit. -/
def LexError.At (offset : Nat) (tail : List Char) (e : LexError) : Prop :=
  ∃ before, Malformed (tail ++ [' ']) e.flaw before e.found ∧
    e.span = ⟨offset + byteSize before, e.found.utf8Size⟩

namespace LexError.At

variable {front tail : List Char} {e : LexError}

theorem exists_dropBytes? (h : e.At (byteSize front) tail) :
    ∃ after, dropBytes? e.span.offset (front ++ tail ++ [' ']) = some (e.found :: after) := by
  obtain ⟨before, hmalformed, hspan⟩ := h
  obtain ⟨after, hafter⟩ := hmalformed.begins_text
  refine ⟨after, ?_⟩
  rw [hspan, List.append_assoc, ← hafter, ← byteSize_append]
  simpa using dropBytes?_append (front ++ before) (e.found :: after)

/-- Only a missing fraction is noticed as late as behind the source. -/
theorem flaw_of_offset (h : e.At (byteSize front) tail)
    (hoffset : e.span.offset = byteSize (front ++ tail)) : e.flaw = .expectedDigitAfterDot := by
  obtain ⟨before, hmalformed, hspan⟩ := h
  have hsize : byteSize before = byteSize tail := by
    rw [hspan, byteSize_append] at hoffset
    exact Nat.add_left_cancel hoffset
  have hfound : e.found = ' ' := by
    obtain ⟨after, hafter⟩ := hmalformed.begins_text
    rw [List.append_assoc, List.singleton_append] at hafter
    -- `before` and `tail` begin the same text and have the same size
    rcases List.append_eq_append_iff.mp hafter with ⟨more, rfl, hmore⟩ | ⟨more, rfl, hmore⟩
    · cases more with
      | nil => exact (List.cons.inj hmore).1
      | cons c more =>
        have hpos := Char.utf8Size_pos c
        simp only [byteSize_append, byteSize] at hsize
        omega
    · cases more with
      | nil => exact (List.cons.inj hmore).1.symm
      | cons c more =>
        have hpos := Char.utf8Size_pos c
        simp only [byteSize_append, byteSize] at hsize
        omega
  rw [hfound] at hmalformed
  generalize e.flaw = flaw at hmalformed
  cases hmalformed with
  | letterAfterNumber _ _ hletter => exact absurd hletter (by decide)
  | expectedDigitAfterDot => rfl
  | digitAfterColon _ hdigit => exact absurd hdigit (by decide)
  | unexpectedChar _ hvisible => exact absurd hvisible (by decide)

end LexError.At

/-! ## 4. Sources -/

theorem LongestMatch.eq_of_nil {offset : Nat} {x : Stream} (h : LongestMatch offset [] x) :
    x = ⟨[], none⟩ :=
  (h.stream_eq (.inl rfl)).symm.trans (Cursor.stream_of_rest_nil rfl)

/-- **Cutting by longest match accounts for all of a text** up to its end, or up to a malformed
lexeme. -/
theorem LongestMatch.covers {offset : Nat} {text source : List Char} {x : Stream}
    (h : LongestMatch offset text x) (htext : text = source ++ [' ']) :
    ∃ front tail, source = front ++ tail ∧ Covers offset source x.tokens tail ∧
      (x.error = none → tail = []) ∧ ∀ e ∈ x.error, e.At (offset + byteSize front) tail := by
  induction h generalizing source with
  | done => simp at htext
  | @blank offset c text x hblank hrest ih =>
    rcases List.cons_eq_append_iff.mp htext with ⟨rfl, hlast⟩ | ⟨source', rfl, htext'⟩
    · -- the blank is the space behind the source
      obtain rfl : text = [] := (List.cons.inj hlast).2.symm
      obtain rfl := hrest.eq_of_nil
      exact ⟨[], [], rfl, .rest .nil, fun _ => rfl, fun e he => by cases he⟩
    · obtain ⟨front, tail, rfl, hcovers, hnone, herror⟩ := ih htext'
      refine ⟨c :: front, tail, rfl, hcovers.blank hblank, hnone, ?_⟩
      rw [byteSize, ← Nat.add_assoc]
      exact herror
  | @lexeme offset kind lexeme rest x hlongest hfine hrest ih =>
    obtain ⟨rest', rfl, hrest'⟩ := hlongest.exists_rest htext
    obtain ⟨front, tail, rfl, hcovers, hnone, herror⟩ := ih hrest'
    refine ⟨lexeme ++ front, tail, by rw [List.append_assoc], ?_, hnone, ?_⟩
    · exact hcovers.lexeme hlongest.spells.ne_empty kind
    · rw [byteSize_append, ← Nat.add_assoc]
      exact herror
  | @malformed offset text before flaw c hmalformed =>
    refine ⟨[], source, rfl, .rest .nil, (fun hnone => by cases hnone), ?_⟩
    rintro e ⟨⟩
    exact ⟨before, htext ▸ hmalformed, rfl⟩

/-- The tokens make up the source, with white space between them, up to a part at its end. -/
structure Decomposes (source : String) (ts : List Token) (tail : List Char) : Prop where
  covers : Covers 0 source.toList ts tail
  slice : ∀ t ∈ ts, t.text ≠ "" ∧
    slice? t.span.offset (t.span.offset + t.span.len) source.toList = some t.text.toList
  ordered : ts.Pairwise fun t u =>
    t.span.offset < u.span.offset ∧ t.span.offset + t.span.len ≤ u.span.offset

theorem Covers.decomposes {source : String} {ts : List Token} {tail : List Char}
    (h : Covers 0 source.toList ts tail) : Decomposes source ts tail := by
  have hne : ∀ t ∈ ts, t.text ≠ "" ∧ 0 < t.span.len := by
    intro t ht
    obtain ⟨before, after, -, hne, hspan⟩ := h.exists_split ht
    refine ⟨hne, ?_⟩
    rw [hspan]
    have hlength : 0 < t.text.toList.length := by simpa [Nat.pos_iff_ne_zero] using hne
    exact Nat.lt_of_lt_of_le hlength (length_le_byteSize _)
  refine ⟨h, fun t ht => ⟨(hne t ht).1, h.slice_of_mem ht⟩, ?_⟩
  refine h.ordered.imp_of_mem fun {t u} ht hu hle => ⟨?_, hle⟩
  have hpos := (hne t ht).2
  omega

theorem exists_decomposes (source : String) :
    ∃ front tail, source.toList = front ++ tail ∧
      Decomposes source (sourceStream source).tokens tail ∧
      ((sourceStream source).error = none → tail = []) ∧
      ∀ e ∈ (sourceStream source).error, e.At (byteSize front) tail := by
  obtain ⟨front, tail, hsource, hcovers, hnone, herror⟩ :=
    (sourceStream_eq_iff.mp (rfl : sourceStream source = _)).covers rfl
  rw [Nat.zero_add] at herror
  exact ⟨front, tail, hsource, hcovers.decomposes, hnone, herror⟩

/-- No two tokens of a source start at the same offset. -/
theorem nodup_offsets (source : String) :
    ((sourceStream source).tokens.map (·.span.offset)).Nodup := by
  obtain ⟨front, tail, -, hdecomposes, -⟩ := exists_decomposes source
  exact List.pairwise_map.mpr (hdecomposes.ordered.imp fun hlt => Nat.ne_of_lt hlt.1)

/-- **Tokenization loses nothing.** A source that has tokens is made of them and of white space. One
that has none is made of the tokens handed out before the error, of white space, and of what begins
with the malformed lexeme. -/
theorem Lexer.tokens_lossless (source : String) :
    (∀ ts, (Lexer.ofSource source).tokens.answer = .ok ts → Decomposes source ts []) ∧
    ∀ e, (Lexer.ofSource source).tokens.answer = .error e →
      ∃ ts front tail, (Lexer.ofSource source).Yields ⟨ts, some e⟩ ∧ Decomposes source ts tail ∧
        source.toList = front ++ tail ∧ e.At (byteSize front) tail ∧
        (∃ after, dropBytes? e.span.offset (source.toList ++ [' ']) = some (e.found :: after)) ∧
        e.span.len = e.found.utf8Size ∧
        (e.span.offset = source.utf8ByteSize → e.flaw = .expectedDigitAfterDot) := by
  obtain ⟨front, tail, hsource, hdecomposes, hnone, herror⟩ := exists_decomposes source
  constructor
  · intro ts hts
    have hstream := tokens_ofSource_eq_ok_iff.mp hts
    rw [hstream] at hdecomposes hnone
    rwa [hnone rfl] at hdecomposes
  · intro e he
    have hstream := tokens_ofSource_eq_error_iff.mp he
    have hyields := (Lexer.ofSource source).yields_stream
    have hat := herror e hstream
    refine ⟨(sourceStream source).tokens, front, tail, ?_, hdecomposes, hsource, hat, ?_, ?_, ?_⟩
    · rw [← hstream]
      exact hyields
    · rw [hsource]
      exact hat.exists_dropBytes?
    · obtain ⟨before, -, hspan⟩ := hat
      rw [hspan]
    · intro hoffset
      apply hat.flaw_of_offset
      rw [hoffset, ← hsource, byteSize_toList]

/-- A source with characters of two bytes, and one that ends with the point of a number. -/
theorem Lexer.tokens_lossless_accented :
    ((Lexer.ofSource "é1 := ß").tokens.answer = .ok [⟨⟨0, 3⟩, .identifier, "é1"⟩,
        ⟨⟨4, 2⟩, .attributor, ":="⟩, ⟨⟨7, 2⟩, .identifier, "ß"⟩] ∧
      Decomposes "é1 := ß" [⟨⟨0, 3⟩, .identifier, "é1"⟩, ⟨⟨4, 2⟩, .attributor, ":="⟩,
        ⟨⟨7, 2⟩, .identifier, "ß"⟩] []) ∧
    (Lexer.ofSource "ß 12.").tokens.answer = .error ⟨.expectedDigitAfterDot, ' ', ⟨6, 1⟩⟩ ∧
      ∃ ts front tail,
        (Lexer.ofSource "ß 12.").Yields ⟨ts, some ⟨.expectedDigitAfterDot, ' ', ⟨6, 1⟩⟩⟩ ∧
        Decomposes "ß 12." ts tail ∧ "ß 12.".toList = front ++ tail ∧
        LexError.At (byteSize front) tail ⟨.expectedDigitAfterDot, ' ', ⟨6, 1⟩⟩ := by
  have hok : (Lexer.ofSource "é1 := ß").tokens.answer = .ok [⟨⟨0, 3⟩, .identifier, "é1"⟩,
      ⟨⟨4, 2⟩, .attributor, ":="⟩, ⟨⟨7, 2⟩, .identifier, "ß"⟩] := by decide +kernel
  have herror : (Lexer.ofSource "ß 12.").tokens.answer =
      .error ⟨.expectedDigitAfterDot, ' ', ⟨6, 1⟩⟩ := by decide +kernel
  obtain ⟨ts, front, tail, hyields, hdecomposes, hsource, hat, -⟩ :=
    (Lexer.tokens_lossless "ß 12.").2 _ herror
  exact ⟨⟨hok, (Lexer.tokens_lossless "é1 := ß").1 _ hok⟩, herror, ts, front, tail, hyields,
    hdecomposes, hsource, hat⟩

end ThreeAddress
