import Mathlib.Data.List.Basic
import ThreeAddress.Location
import ThreeAddress.Proofs.Location.Coordinates

/-!
# Excerpts

A location is shown as an excerpt of its source. `excerptLines` says what that is, line by line: the
lines around the place, each behind its number, and a marker under the line of the place. The lines
of what is printed are these and no others (`Location.lines_rendered`), so the marker is the one
line of the excerpt that is no line of the source.

What is in front of a place is seen in full on the line that is printed, although white space is cut
off at its end, as long as no white space is right in front of the place (`exists_shownLine`).
-/

namespace ThreeAddress

open Text

/-! ## 1. The lines that are shown -/

/-- The numbers from `a` to `b`. -/
def numbers (a b : Nat) : List Nat :=
  List.range' a (b + 1 - a)

/-- The number of the first line around a line. -/
def firstShown (line : Nat) : Nat :=
  max 1 (line - 2)

/-- The number of the last line around a line. -/
def lastShown (source : String) (line : Nat) : Nat :=
  min (lines source.toList).length (line + 2)

/-- What stands in front of a line: its number, flush right under the largest one, and a bar. -/
def lineLabel (source : String) (line number : Nat) : List Char :=
  (padLeft ' ' (toString (lastShown source line)).length (toString number)).toList ++ " | ".toList

/-- A line of the excerpt around a line, without the white space at its end. -/
def shownLine (source : String) (line number : Nat) : List Char :=
  lineLabel source line number ++
    (trimEnd (String.ofList ((lines source.toList).getD (number - 1) []))).toList

/-- The lines of an excerpt around a line, with a marker behind that line. -/
def excerptLines (source : String) (line : Nat) (marker : List Char) : List (List Char) :=
  (numbers (firstShown line) line).map (shownLine source line) ++
    marker :: (numbers (line + 1) (lastShown source line)).map (shownLine source line)

theorem mem_numbers {a b n : Nat} : n ∈ numbers a b ↔ a ≤ n ∧ n ≤ b := by
  rw [numbers, List.mem_range'_1]
  omega

theorem numbers_append {a b c : Nat} (hab : a ≤ b + 1) (hbc : b ≤ c) :
    numbers a b ++ numbers (b + 1) c = numbers a c := by
  have hstart : a + (b + 1 - a) = b + 1 := by omega
  have hlength : b + 1 - a + (c + 1 - (b + 1)) = c + 1 - a := by omega
  rw [numbers, numbers, numbers, ← hlength, ← List.range'_append_1, hstart]

theorem numbers_self (a : Nat) : numbers a a = [a] := by
  rw [numbers, Nat.add_sub_cancel_left]
  rfl

/-- The numbers of the lines around a line, in front of it and behind it. -/
theorem numbers_shown {source : String} {line : Nat} (hpos : 1 ≤ line)
    (hline : line ≤ (lines source.toList).length) :
    numbers (firstShown line) (lastShown source line) =
        numbers (firstShown line) (line - 1) ++
          ([line] ++ numbers (line + 1) (lastShown source line)) ∧
      numbers (firstShown line) line = numbers (firstShown line) (line - 1) ++ [line] := by
  have hfirst : firstShown line ≤ line := by
    rw [firstShown]
    omega
  have hlast : line ≤ lastShown source line := by
    rw [lastShown]
    omega
  have hupTo : numbers (firstShown line) line = numbers (firstShown line) (line - 1) ++ [line] := by
    rw [← numbers_append (b := line - 1) (by omega) (by omega), Nat.sub_add_cancel hpos,
      numbers_self]
  refine ⟨?_, hupTo⟩
  rw [← List.append_assoc, ← hupTo, numbers_append (Nat.le_succ_of_le hfirst) hlast]

/-- The numbers of an interval, among more numbers. -/
theorem filter_numbers {a b c d : Nat} (hlow : a ≤ c + 1) (hmid : c ≤ d) (hhigh : d ≤ b) :
    (numbers a b).filter (fun n => decide (c + 1 ≤ n ∧ n ≤ d)) = numbers (c + 1) d := by
  have hbelow : (numbers a c).filter (fun n => decide (c + 1 ≤ n ∧ n ≤ d)) = [] := by
    rw [List.filter_eq_nil_iff]
    intro n hn
    rw [mem_numbers] at hn
    rw [decide_eq_true_iff]
    omega
  have hinside : (numbers (c + 1) d).filter (fun n => decide (c + 1 ≤ n ∧ n ≤ d)) =
      numbers (c + 1) d := by
    rw [List.filter_eq_self]
    intro n hn
    rwa [decide_eq_true_iff, ← mem_numbers]
  have habove : (numbers (d + 1) b).filter (fun n => decide (c + 1 ≤ n ∧ n ≤ d)) = [] := by
    rw [List.filter_eq_nil_iff]
    intro n hn
    rw [mem_numbers] at hn
    rw [decide_eq_true_iff]
    omega
  rw [← numbers_append hlow (Nat.le_trans hmid hhigh), ← numbers_append (by omega) hhigh,
    List.filter_append, List.filter_append, hbelow, hinside, habove, List.nil_append,
    List.append_nil]

theorem zipIdx_one (xs : List (List Char)) :
    xs.zipIdx 1 = (numbers 1 xs.length).map fun n => (xs.getD (n - 1) [], n) := by
  refine List.ext_getElem (by simp [numbers]) fun i hi _ => ?_
  have hlt : i < xs.length := by simpa using hi
  simp [numbers, hlt, Nat.add_comm 1 i]

theorem firstShown_eq (line : Nat) : firstShown line = line - 3 + 1 := by
  rw [firstShown]
  omega

/-- A line of a source, with the column of a place if it is the line of the place. -/
def sourceLine (source : String) (line col number : Nat) : SourceLine :=
  ⟨number, if number = line then col else 0,
    String.ofList ((lines source.toList).getD (number - 1) [])⟩

/-- **The lines of an excerpt** are those around the line of the span. -/
theorem Span.excerpt_eq (s : Span) (source : String) :
    s.excerpt source Location.margin Location.margin =
      (numbers (firstShown (s.lineCol source).1) (lastShown source (s.lineCol source).1)).map
        (sourceLine source (s.lineCol source).1 (s.lineCol source).2) := by
  obtain ⟨hline, -⟩ := s.coordinates_lineCol source
  have hpos : 1 ≤ (s.lineCol source).1 := Nat.le_add_left ..
  generalize hlc : s.lineCol source = lc at hline hpos ⊢
  obtain ⟨line, col⟩ := lc
  have hfilter : (numbers 1 (lines source.toList).length).filter
      (fun n => decide (line - Location.margin ≤ n ∧ n ≤ line + Location.margin)) =
      numbers (firstShown line) (lastShown source line) := by
    have hinterval := filter_numbers (a := 1) (b := (lines source.toList).length) (c := line - 3)
      (d := lastShown source line) (by omega) (by rw [lastShown]; omega) (by rw [lastShown]; omega)
    rw [firstShown_eq, ← hinterval]
    refine List.filter_congr fun n hn => ?_
    rw [mem_numbers] at hn
    rw [Location.margin, lastShown, decide_eq_decide]
    omega
  rw [excerpt, hlc, zipIdx_one, ← hfilter]
  show ((numbers 1 (lines source.toList).length).map _).filterMap _ = _
  rw [List.filterMap_map]
  conv_rhs => rw [← List.filterMap_eq_map, List.filterMap_filter]
  simp [sourceLine]

/-! ## 2. White space and line feeds -/

/-- White space is cut off behind a character that is none. -/
theorem exists_trimEnd_append {c : Char} (hc : isWhiteSpace c = false) (front back : List Char) :
    ∃ rest, (trimEnd (String.ofList (front ++ [c] ++ back))).toList = front ++ [c] ++ rest := by
  rw [trimEnd, String.toList_ofList, String.toList_ofList, List.reverse_append,
    List.dropWhile_append]
  split
  · refine ⟨[], ?_⟩
    rw [List.reverse_append, List.reverse_singleton, List.singleton_append,
      List.dropWhile_cons_of_neg (by simp [hc])]
    simp
  · refine ⟨(back.reverse.dropWhile isWhiteSpace).reverse, ?_⟩
    rw [List.reverse_append, List.reverse_reverse]

theorem newline_not_mem_toString (n : Nat) : '\n' ∉ (toString n).toList :=
  fun h => absurd ((isNumber_toString n).2 '\n' h) (by decide)

theorem newline_not_mem_shownLine (source : String) (line number : Nat) :
    '\n' ∉ shownLine source line number := by
  have hnumber := newline_not_mem_toString number
  have hline : '\n' ∉ (lines source.toList).getD (number - 1) [] := by
    rw [List.getD_eq_getElem?_getD]
    cases hpiece : (lines source.toList)[number - 1]? with
    | none => exact List.not_mem_nil
    | some piece => exact not_mem_of_mem_split (List.mem_of_getElem? hpiece)
  simp only [shownLine, lineLabel, padLeft, trimEnd, String.toList_append, String.toList_ofList,
    List.mem_append, List.mem_replicate, List.mem_reverse, not_or]
  refine ⟨⟨⟨fun h => absurd h.2 (by decide), hnumber⟩, by decide⟩, fun h => hline ?_⟩
  exact List.mem_reverse.mp ((List.dropWhile_sublist _).mem h)

/-! ## 3. Resolving and printing -/

namespace Location

variable {source : String} {span : Span} {l : Location}

theorem resolve_spec (h : resolve source span = .ok l) :
    l.span = span ∧ (l.line, l.col) = span.lineCol source ∧
    l.excerpt = span.excerpt source margin margin ∧
      ∀ text, slice? (min span.offset source.utf8ByteSize)
        (min (span.offset + span.len) source.utf8ByteSize) source.toList = some text →
          l.width = text.length := by
  rw [resolve] at h
  simp only [bind, Except.bind] at h
  split at h
  · cases h
  · rename_i stop hstop
    obtain rfl : span.offset + span.len = stop := by
      rw [addWords] at hstop
      split at hstop
      · exact Except.ok.inj hstop
      · cases hstop
    split at h
    · rename_i text htext
      cases h
      refine ⟨rfl, rfl, rfl, fun text' htext' => ?_⟩
      rw [htext] at htext'
      cases htext'
      rfl
    · rename_i hnone
      split at h
      · cases h
      · cases h
        refine ⟨rfl, rfl, rfl, fun text htext => ?_⟩
        rw [hnone] at htext
        cases htext

/-- The width of the numbers is that of the last one. -/
theorem gutter_eq (h : resolve source span = .ok l) :
    l.gutter = (toString (lastShown source l.line)).length := by
  obtain ⟨-, hlineCol, hexcerpt, -⟩ := resolve_spec h
  obtain ⟨hline, -⟩ := span.coordinates_lineCol source
  have hpos : 1 ≤ (span.lineCol source).1 := Nat.le_add_left ..
  rw [← hlineCol] at hline hpos
  have hlast : (l.excerpt.map SourceLine.number).max? = some (lastShown source l.line) := by
    rw [hexcerpt, Span.excerpt_eq, ← hlineCol, List.map_map, Function.comp_def]
    simp only [sourceLine, List.map_id']
    rw [List.max?_eq_some_iff]
    refine ⟨mem_numbers.mpr ⟨?_, Nat.le_refl _⟩, fun n hn => (mem_numbers.mp hn).2⟩
    rw [firstShown, lastShown]
    omega
  rw [gutter, hlast]
  rfl

/-- The marker, without the line feed behind it. -/
def markerLine (l : Location) : List Char :=
  if 0 < l.width then List.replicate (l.gutter + 3 + l.col) ' ' ++ List.replicate l.width '~'
  else List.replicate (l.gutter + 3) ' ' ++ (List.replicate l.col '-' ++ ['^'])

/-- The position in front of an excerpt. -/
def heading (l : Location) : List Char :=
  [' ', ' ', '-', '>', ' '] ++ (toString l.line).toList ++ ':' :: (toString (l.col + 1)).toList

theorem toList_heading (l : Location) :
    (s!"  -> {l.line}:{l.col + 1}\n").toList = l.heading ++ ['\n'] := by
  have harrow : "  -> ".toList = [' ', ' ', '-', '>', ' '] := by decide
  have hcolon : ":".toList = [':'] := by decide
  have hfeed : "\n".toList = ['\n'] := by decide
  change ("  -> " ++ toString l.line ++ ":" ++ toString (l.col + 1) ++ "\n").toList = _
  simp only [heading, String.toList_append, harrow, hcolon, hfeed, List.append_assoc,
    List.cons_append, List.nil_append]

theorem toList_marker {line : SourceLine} (h : line.col = l.col) :
    (l.marker line).toList = l.markerLine ++ ['\n'] := by
  rw [marker, markerLine, h]
  split
  · simp [← List.replicate_append_replicate]
  · simp

theorem toList_numbered (h : resolve source span = .ok l) (n : Nat) :
    (l.numbered (sourceLine source l.line l.col n)).toList =
      shownLine source l.line n ++ ['\n'] := by
  rw [numbered, gutter_eq h, shownLine, lineLabel, sourceLine]
  simp

theorem toList_excerptLine (h : resolve source span = .ok l) {n : Nat} (hn : n ≠ l.line) :
    (l.excerptLine (sourceLine source l.line l.col n)).toList =
      shownLine source l.line n ++ ['\n'] := by
  have hnumber : (sourceLine source l.line l.col n).number ≠ l.line := hn
  rw [excerptLine, if_neg hnumber, String.append_empty, toList_numbered h]

theorem toList_excerptLine_self (h : resolve source span = .ok l) :
    (l.excerptLine (sourceLine source l.line l.col l.line)).toList =
      shownLine source l.line l.line ++ ['\n'] ++ (l.markerLine ++ ['\n']) := by
  have hnumber : (sourceLine source l.line l.col l.line).number = l.line := rfl
  rw [excerptLine, if_pos hnumber, String.toList_append, toList_numbered h,
    toList_marker (if_pos rfl)]

/-- What is printed, line by line. The marker is behind one of the lines only. -/
theorem toList_rendered (h : resolve source span = .ok l) :
    l.rendered.toList =
      (l.heading :: excerptLines source l.line l.markerLine).flatMap (· ++ ['\n']) := by
  obtain ⟨-, hlineCol, hexcerpt, -⟩ := resolve_spec h
  obtain ⟨hline, -⟩ := span.coordinates_lineCol source
  have hpos : 1 ≤ (span.lineCol source).1 := Nat.le_add_left ..
  rw [Span.excerpt_eq] at hexcerpt
  rw [← hlineCol] at hline hpos hexcerpt
  obtain ⟨hnumbers, hupTo⟩ := numbers_shown hpos hline
  have hbefore : ∀ n ∈ numbers (firstShown l.line) (l.line - 1),
      (l.excerptLine (sourceLine source l.line l.col n)).toList =
        shownLine source l.line n ++ ['\n'] := by
    intro n hn
    rw [mem_numbers] at hn
    exact toList_excerptLine h (by omega)
  have hafter : ∀ n ∈ numbers (l.line + 1) (lastShown source l.line),
      (l.excerptLine (sourceLine source l.line l.col n)).toList =
        shownLine source l.line n ++ ['\n'] := by
    intro n hn
    rw [mem_numbers] at hn
    exact toList_excerptLine h (by omega)
  rw [rendered, String.toList_append, toList_heading, String.toList_join, hexcerpt,
    List.flatMap_map, List.flatMap_map, hnumbers, List.flatMap_append, List.flatMap_append,
    List.flatMap_singleton, List.flatMap_congr hbefore, toList_excerptLine_self h,
    List.flatMap_congr hafter, List.flatMap_cons, excerptLines, hupTo, List.flatMap_append,
    List.flatMap_cons, List.flatMap_map, List.flatMap_map, List.flatMap_append,
    List.flatMap_singleton]
  simp only [List.append_assoc]

theorem newline_not_mem_heading (l : Location) : '\n' ∉ l.heading := by
  have hline := newline_not_mem_toString l.line
  have hcol := newline_not_mem_toString (l.col + 1)
  simp only [heading, List.mem_append, List.mem_cons, not_or]
  exact ⟨⟨by decide, hline⟩, by decide, hcol⟩

theorem newline_not_mem_markerLine (l : Location) : '\n' ∉ l.markerLine := by
  rw [markerLine]
  split <;> simp [List.mem_replicate]

/-- **The lines of what is printed**: the position, the excerpt, and nothing behind the last line
feed. -/
theorem lines_rendered (h : resolve source span = .ok l) :
    lines l.rendered.toList = l.heading :: excerptLines source l.line l.markerLine ++ [[]] := by
  rw [toList_rendered h, lines_flatMap]
  intro row hrow
  rcases List.mem_cons.mp hrow with rfl | hrow
  · exact l.newline_not_mem_heading
  rw [excerptLines, List.mem_append, List.mem_map, List.mem_cons, List.mem_map] at hrow
  rcases hrow with ⟨n, -, rfl⟩ | rfl | ⟨n, -, rfl⟩
  · exact newline_not_mem_shownLine source l.line n
  · exact l.newline_not_mem_markerLine
  · exact newline_not_mem_shownLine source l.line n

end Location

/-! ## 4. What is in front of a place -/

section

variable {source : String} {before after : List Char}

theorem length_toString_mono {m n : Nat} (h : m ≤ n) :
    (toString m).length ≤ (toString n).length := by
  rw [Nat.toString_eq_repr, Nat.toString_eq_repr]
  have hpos : 0 < n.repr.length := by
    rw [← String.length_toList, Nat.toList_repr]
    exact Nat.length_toDigits_pos
  rw [Nat.length_repr_le_iff hpos]
  exact Nat.lt_of_le_of_lt h ((Nat.length_repr_le_iff hpos).mp (Nat.le_refl _))

/-- All lines have labels of the same width. -/
theorem length_lineLabel {line number : Nat} (h : number ≤ lastShown source line) :
    (lineLabel source line number).length = (toString (lastShown source line)).length + 3 := by
  have hle := length_toString_mono h
  simp only [lineLabel, padLeft, String.toList_append, String.toList_ofList, List.length_append,
    List.length_replicate, String.length_toList]
  show _ + 3 = _
  omega

/-- **What is in front of a place is seen on its line**, if no white space is right in front of the
place. -/
theorem exists_shownLine (h : source.toList = before ++ after)
    (hlast : ∀ c ∈ before.getLast?, isWhiteSpace c = false) :
    ∃ rest, shownLine source (before.count '\n' + 1) (before.count '\n' + 1) =
      lineLabel source (before.count '\n' + 1) (before.count '\n' + 1) ++
        (lastLine before ++ rest) := by
  have hline := getD_lines_append before after
  rw [← h] at hline
  rw [shownLine, Nat.add_sub_cancel, hline]
  rcases List.eq_nil_or_concat before with rfl | ⟨front, c, rfl⟩
  · have hnil : lastLine [] = [] := rfl
    simp only [hnil, List.nil_append]
    exact ⟨_, rfl⟩
  · rw [List.concat_eq_append] at hlast ⊢
    have hc : isWhiteSpace c = false := hlast c (by simp)
    have hnewline : '\n' ∉ [c] := by
      rw [List.mem_singleton]
      rintro rfl
      exact absurd hc (by decide)
    rw [lastLine_append_of_not_mem hnewline]
    obtain ⟨rest, hrest⟩ := exists_trimEnd_append hc (lastLine front) (after.takeWhile (· ≠ '\n'))
    exact ⟨rest, by rw [hrest]⟩

end

end ThreeAddress
