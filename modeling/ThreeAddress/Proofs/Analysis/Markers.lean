import ThreeAddress.Proofs.Analysis.OpenCategories
import ThreeAddress.Proofs.Location.Excerpt

/-!
# What a marker points at

A rejection shows the lines around its place, with a marker under the line of the place. The marker
is a row of `~` under the lexeme that does not fit, or a `^` where more was expected. The column of
the marker, its width and the line above it are found in different ways: in bytes, in characters,
and in characters of what is left of a line when its white space is cut off. They agree because a
place that is reported is the start of a token, or the end of one, or behind the point of a number,
so there is no white space in front of what has to be seen.

All of them come from the text in front of the place (`Location.shows_of_resolve`), and so does the
statement (`Diagnostic.marker_at_place`).
-/

namespace ThreeAddress

open Text

/-! ## 1. Markers -/

/-- The line of the place behind a text. -/
def lineOf (before : List Char) : Nat :=
  before.count '\n' + 1

/-- What is printed on the line of a place, up to the place. -/
def shownBefore (source : String) (before : List Char) : List Char :=
  lineLabel source (lineOf before) (lineOf before) ++ lastLine before

/-- The marker under some characters from a place on. -/
def underline (source : String) (before : List Char) (width : Nat) : List Char :=
  List.replicate (shownBefore source before).length ' ' ++ List.replicate width '~'

/-- The marker at a place, behind a row of dashes under what is in front of it. -/
def pointer (source : String) (before : List Char) : List Char :=
  List.replicate (lineLabel source (lineOf before) (lineOf before)).length ' ' ++
    (List.replicate (lastLine before).length '-' ++ ['^'])

namespace Location

variable {source : String} {span : Span} {l : Location} {before text after : List Char}

/-- The location is the place behind `before`, and its marker is the one for the text there. -/
structure Shows (source : String) (l : Location) (before text after : List Char) : Prop where
  source_eq : source.toList = before ++ (text ++ after)
  offset : l.span.offset = byteSize before
  line : l.line = lineOf before
  markerLine : l.markerLine =
    if text = [] then pointer source before else underline source before text.length

/-- **What a location shows**, by the text in front of its span and the text that the span covers. A
span may go on behind the end of the source. -/
theorem shows_of_resolve (h : resolve source span = .ok l)
    (hsource : source.toList = before ++ (text ++ after)) (hoffset : byteSize before = span.offset)
    (hstop : byteSize before + byteSize text = min (span.offset + span.len) source.utf8ByteSize) :
    l.Shows source before text after := by
  obtain ⟨hspan, hlineCol, -, hwidth⟩ := resolve_spec h
  rw [Span.lineCol, Span.before_eq hsource hoffset] at hlineCol
  obtain ⟨hline, hcol⟩ : l.line = lineOf before ∧ l.col = (lastLine before).length :=
    Prod.mk.inj hlineCol
  have hstart : min span.offset source.utf8ByteSize = byteSize before := by omega
  have hlength : l.width = text.length := by
    apply hwidth
    rw [hstart, ← hstop, hsource]
    exact slice?_append before text after
  have hlast : lineOf before ≤ lastShown source (lineOf before) := by
    obtain ⟨hle, -⟩ := coordinates_append before (text ++ after)
    rw [← hsource] at hle
    exact Nat.le_min.mpr ⟨hle, Nat.le_add_right ..⟩
  refine ⟨hsource, by rw [hspan, hoffset], hline, ?_⟩
  have hlabel := length_lineLabel hlast
  rw [Location.markerLine, gutter_eq h, hline, hcol, hlength, ← hlabel, underline, pointer,
    shownBefore, List.length_append]
  simp only [List.length_pos_iff, ne_eq, ite_not]

theorem shows_of_exact (h : resolve source ⟨byteSize before, byteSize text⟩ = .ok l)
    (hsource : source.toList = before ++ (text ++ after)) : l.Shows source before text after := by
  refine shows_of_resolve h hsource rfl ?_
  rw [← byteSize_toList, hsource, byteSize_append, byteSize_append]
  dsimp only
  omega

end Location

/-! ## 2. Places -/

/-- The place is the start of the token, which is seen there, and the marker is under all of it. -/
structure Underlined (source : String) (before after : List Char) (t : Token)
    (marker : List Char) : Prop where
  token : t ∈ (sourceStream source).tokens
  offset : t.span.offset = byteSize before
  text : ∃ more, after = t.text.toList ++ more
  above : ∃ rest, shownLine source (lineOf before) (lineOf before) =
    shownBefore source before ++ (t.text.toList ++ rest)
  marker_eq : marker = underline source before t.text.length

/-- All that is in front of the place on its line is seen, and the marker is right behind it. -/
structure Pointed (source : String) (before marker : List Char) : Prop where
  above : ∃ rest,
    shownLine source (lineOf before) (lineOf before) = shownBefore source before ++ rest
  marker_eq : marker = pointer source before

/-- The marker is the one for the cause of a rejection. -/
def Cause.MarkedBy (source : String) (before after marker : List Char) : Cause → Prop
  | .unexpected _ (some t) => Underlined source before after t marker
  | .unexpected _ none => Pointed source before marker
  | .declaration (.undeclared name) | .declaration (.alreadyDeclared name) =>
    ∃ t, t.text = name ∧ Underlined source before after t marker
  | .lexical e =>
    if e.span.offset = source.utf8ByteSize then Pointed source before marker
    else (∃ more, after = e.found :: more) ∧ marker = underline source before 1
  | .internal _ => False

/-- The marker of the location is the one for the cause, at the place of the location. -/
def Location.Marks (source : String) (l : Location) (cause : Cause) : Prop :=
  ∃ before after,
    source.toList = before ++ after ∧ l.span.offset = byteSize before ∧ l.line = lineOf before ∧
    cause.MarkedBy source before after l.markerLine

/-- What is printed for a rejection at the place between two parts of a source: the lines around the
place, and the marker for the cause behind the line of the place. -/
structure Diagnostic.ShownAt (source : String) (d : Diagnostic) (l : Location)
    (before after : List Char) : Prop where
  source_eq : source.toList = before ++ after
  offset : l.span.offset = byteSize before
  line : l.line = lineOf before
  message : d.message = d.cause.message ++ "\n" ++ l.rendered ++ stackText d.stack
  lines : ∃ marker,
    lines l.rendered.toList = l.heading :: excerptLines source l.line marker ++ [[]] ∧
    d.cause.MarkedBy source before after marker

section

variable {source : String} {l : Location} {t : Token} {before after : List Char}

/-- Where a token is, and that it has no white space in it. -/
theorem exists_token_split (ht : t ∈ (sourceStream source).tokens) :
    ∃ before after, source.toList = before ++ (t.text.toList ++ after) ∧
      t.span = ⟨byteSize before, byteSize t.text.toList⟩ ∧ t.text.toList ≠ [] ∧
      ∀ c ∈ t.text.toList, isWhiteSpace c = false := by
  obtain ⟨front, tail, -, hdecomposes, -⟩ := exists_decomposes source
  obtain ⟨before, after, hsource, hne, hspan⟩ := hdecomposes.covers.exists_split ht
  rw [Nat.zero_add] at hspan
  refine ⟨before, after, hsource, hspan, ?_, (sourceStream_spells ht).visible⟩
  rwa [ne_eq, String.toList_eq_nil_iff]

/-- A text without white space stays on its line. -/
theorem shownBefore_append (source : String) (before : List Char) {text : List Char}
    (h : ∀ c ∈ text, isWhiteSpace c = false) :
    lineOf (before ++ text) = lineOf before ∧
      shownBefore source (before ++ text) = shownBefore source before ++ text := by
  have hnewline : '\n' ∉ text := fun hmem => absurd (h _ hmem) (by decide)
  have hline : lineOf (before ++ text) = lineOf before := by
    rw [lineOf, List.count_append, List.count_eq_zero_of_not_mem hnewline, Nat.add_zero, lineOf]
  refine ⟨hline, ?_⟩
  rw [shownBefore, hline, lastLine_append_of_not_mem hnewline, shownBefore, List.append_assoc]

theorem exists_shownBefore (hsource : source.toList = before ++ after)
    (hlast : ∀ c ∈ before.getLast?, isWhiteSpace c = false) :
    ∃ rest,
      shownLine source (lineOf before) (lineOf before) = shownBefore source before ++ rest := by
  obtain ⟨rest, hrest⟩ := exists_shownLine hsource hlast
  exact ⟨rest, hrest.trans (List.append_assoc ..).symm⟩

theorem getLast?_visible {text : List Char} (hne : text ≠ [])
    (h : ∀ c ∈ text, isWhiteSpace c = false) :
    ∀ c ∈ (before ++ text).getLast?, isWhiteSpace c = false := by
  intro c hc
  rw [List.getLast?_append_of_ne_nil _ hne] at hc
  exact h c (List.mem_of_getLast? hc)

/-- A token that is reported is underlined. -/
theorem exists_underlined (ht : t ∈ (sourceStream source).tokens)
    (hl : Location.resolve source t.span = .ok l) :
    ∃ before after,
      source.toList = before ++ after ∧ l.span.offset = byteSize before ∧ l.line = lineOf before ∧
      Underlined source before after t l.markerLine := by
  obtain ⟨before, after, hsource, hspan, hne, hvisible⟩ := exists_token_split ht
  rw [hspan] at hl
  have hshows := Location.shows_of_exact hl hsource
  have hwhole : source.toList = (before ++ t.text.toList) ++ after := by
    rw [hsource, List.append_assoc]
  obtain ⟨rest, habove⟩ := exists_shownBefore hwhole (getLast?_visible hne hvisible)
  obtain ⟨hsame, hbefore⟩ := shownBefore_append source before hvisible
  rw [hsame, hbefore, List.append_assoc] at habove
  refine ⟨before, _, hsource, hshows.offset, hshows.line,
    ht, by rw [hspan], ⟨after, rfl⟩, ⟨rest, habove⟩, ?_⟩
  rw [hshows.markerLine, if_neg hne, String.length_toList]

/-- Where the tokens of a source end, there is a pointer. -/
theorem marks_of_ended {expected : String} (ht : t ∈ (sourceStream source).tokens)
    (hl : Location.resolve source ⟨t.span.offset + t.span.len, 0⟩ = .ok l) :
    l.Marks source (.unexpected expected none) := by
  obtain ⟨front, after, hsource, hspan, hne, hvisible⟩ := exists_token_split ht
  have hwhole : source.toList = (front ++ t.text.toList) ++ ([] ++ after) := by
    rw [hsource, List.append_assoc, List.nil_append]
  have hoffset : t.span.offset + t.span.len = byteSize (front ++ t.text.toList) := by
    rw [hspan, byteSize_append]
  rw [hoffset] at hl
  have hshows : l.Shows source (front ++ t.text.toList) [] after :=
    Location.shows_of_exact hl hwhole
  exact ⟨_, _, hwhole, hshows.offset, hshows.line,
    exists_shownBefore hwhole (getLast?_visible hne hvisible), hshows.markerLine⟩

/-- A number without its fraction may end the source, and then the marker is behind its point. -/
theorem marks_of_point {e : LexError} {digits : List Char}
    (hsource : source.toList = digits ++ ['.'])
    (hspan : e.span = ⟨byteSize (digits ++ ['.']), e.found.utf8Size⟩)
    (hl : Location.resolve source e.span = .ok l) : l.Marks source (.lexical e) := by
  have hwhole : source.toList = (digits ++ ['.']) ++ ([] ++ []) := by
    rw [hsource, List.append_nil, List.append_nil]
  have hend : e.span.offset = source.utf8ByteSize := by rw [hspan, ← byteSize_toList, hsource]
  have hstop : byteSize (digits ++ ['.']) + byteSize [] =
      min (e.span.offset + e.span.len) source.utf8ByteSize := by
    rw [← hend, hspan]
    simp only [byteSize]
    omega
  have hshows := Location.shows_of_resolve hl hwhole (by rw [hspan]) hstop
  refine ⟨_, _, hwhole, hshows.offset, hshows.line, ?_⟩
  rw [Cause.MarkedBy, if_pos hend]
  refine ⟨exists_shownBefore hwhole (getLast?_visible (List.cons_ne_nil _ _) ?_), hshows.markerLine⟩
  rw [List.forall_mem_singleton]
  decide

/-- A character that does not fit is underlined. -/
theorem marks_of_found {e : LexError} (hsource : source.toList = before ++ ([e.found] ++ after))
    (hspan : e.span = ⟨byteSize before, e.found.utf8Size⟩)
    (hl : Location.resolve source e.span = .ok l) : l.Marks source (.lexical e) := by
  have hinside : e.span.offset ≠ source.utf8ByteSize := by
    have hpos := Char.utf8Size_pos e.found
    rw [hspan, ← byteSize_toList, hsource, byteSize_append, byteSize_append]
    simp only [byteSize]
    omega
  rw [hspan] at hl
  have hshows : l.Shows source before [e.found] after := Location.shows_of_exact hl hsource
  refine ⟨_, _, hsource, hshows.offset, hshows.line, ?_⟩
  rw [Cause.MarkedBy, if_neg hinside]
  exact ⟨⟨after, rfl⟩, hshows.markerLine⟩

/-- A malformed lexeme is marked at the character that does not fit. -/
theorem marks_of_lexical {e : LexError} (he : (sourceStream source).error = some e)
    (hl : Location.resolve source e.span = .ok l) : l.Marks source (.lexical e) := by
  obtain ⟨front, tail, hsource, -, -, herror⟩ := exists_decomposes source
  obtain ⟨lexeme, hmalformed, hspan⟩ := herror e he
  obtain ⟨rest, hrest⟩ := hmalformed.begins_text
  rw [← byteSize_append] at hspan
  rcases List.eq_nil_or_concat rest with rfl | ⟨more, c, rfl⟩
  · -- the character that does not fit is the space behind the source
    rw [List.append_nil] at hrest
    obtain ⟨rfl, -⟩ := List.append_inj' hrest rfl
    have hflaw := (herror e he).flaw_of_offset (by rw [hspan])
    rw [hflaw] at hmalformed
    cases hmalformed with
    | @expectedDigitAfterDot digits _ hbegins hdigits hother =>
      rw [← List.append_assoc] at hsource hspan
      exact marks_of_point hsource hspan hl
  · have htail : lexeme ++ [e.found] ++ more = tail := by
      rw [List.concat_eq_append, ← List.append_assoc] at hrest
      exact (List.append_inj' hrest rfl).1
    have hwhole : source.toList = (front ++ lexeme) ++ ([e.found] ++ more) := by
      rw [hsource, ← htail, List.append_assoc, List.append_assoc]
    exact marks_of_found hwhole hspan hl

end

/-! ## 3. Rejections -/

namespace Diagnostic

variable {source : String} {d : Diagnostic} {l : Location}

/-- The location of a rejection. -/
def location? (source : String) : Option Location :=
  match (Analysis.ofSource source).1 with
  | .error (.rejected d) => d.location
  | _ => none

theorem exists_of_location? (h : location? source = some l) :
    ∃ d, (Analysis.ofSource source).1 = .error (.rejected d) ∧ d.location = some l := by
  unfold location? at h
  split at h
  · rename_i d hd
    exact ⟨d, hd, h⟩
  · cases h

theorem message_of_location (hl : d.location = some l) :
    d.message = d.cause.message ++ "\n" ++ l.rendered ++ stackText d.stack := by
  rw [message, hl]
  rfl

/-- What a rejection reports is marked at the place that it reports. -/
theorem exists_marks {k : Nat} (h : (sourceStream source).Reported source k d)
    (hl : d.location = some l) :
    (∃ span, Location.resolve source span = .ok l) ∧ l.Marks source d.cause := by
  cases h with
  | lexical position fails place =>
    cases hl
    exact ⟨⟨_, place⟩, marks_of_lexical fails place⟩
  | unexpected token dead place =>
    cases hl
    exact ⟨⟨_, place⟩, exists_underlined (List.mem_of_getElem? token) place⟩
  | redeclared token viable again place | undeclared token viable unknown place =>
    cases hl
    obtain ⟨before, after, hsource, hoffset, hline, hunderlined⟩ :=
      exists_underlined (List.mem_of_getElem? token) place
    exact ⟨⟨_, place⟩, before, after, hsource, hoffset, hline, _, rfl, hunderlined⟩
  | ended position atEnd token place =>
    cases hl
    exact ⟨⟨_, place⟩, marks_of_ended (List.mem_of_getLast? token) place⟩
  | empty position atEnd absent => cases hl

/-- **A marker is under what does not fit.** What is printed for a rejection with a location is an
excerpt of the source around the line of the location, with one marker, behind that line. It is as
wide as the token that does not fit and right under its text, or one character wide if no token can
be cut out, or it points at the place where the source ends too early. -/
theorem marker_at_place (h : (Analysis.ofSource source).1 = .error (.rejected d))
    (hl : d.location = some l) : ∃ before after, d.ShownAt source l before after := by
  obtain ⟨k, hreported, -⟩ := exists_leavesOpen h
  obtain ⟨⟨span, hresolve⟩, before, after, hsource, hoffset, hline, hmarked⟩ :=
    exists_marks hreported hl
  exact ⟨before, after, hsource, hoffset, hline, message_of_location hl, l.markerLine,
    Location.lines_rendered hresolve, hmarked⟩

/-- A name of two bytes that is not declared, on the first line with a number of two digits. -/
def accented : String :=
  "program p\n\n\n\n\n\n\n\nbegin\n  é := 1; \nend."

theorem marker_at_place_accented :
    ∃ d l,
      (Analysis.ofSource accented).1 = .error (.rejected d) ∧ d.location = some l ∧ l.line = 10 ∧
      ∃ before after, d.ShownAt accented l before after := by
  have hplace : (location? accented).map Location.line = some 10 := by decide +kernel
  obtain ⟨l, hlocation, hline⟩ := Option.map_eq_some_iff.mp hplace
  obtain ⟨d, hd, hl⟩ := exists_of_location? hlocation
  exact ⟨d, l, hd, hl, hline, marker_at_place hd hl⟩

end Diagnostic

end ThreeAddress
