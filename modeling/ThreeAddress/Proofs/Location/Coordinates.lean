import Mathlib.Algebra.GroupWithZero.Nat
import Mathlib.Data.Nat.Find
import Mathlib.Data.Prod.Lex
import ThreeAddress.Proofs.Lexer.Positions
import ThreeAddress.Proofs.Text.Pieces

/-!
# Lines and columns

A place in a source can be given in two ways, as an offset in bytes or as a line and a column in
characters. `Span.lineCol` goes from the first to the second, and `Text.offsetOf` goes back. The way
back knows nothing of how the coordinates were found: it adds up the lines of the source.

Both are about the text in front of the place. An offset that is no place, because it is inside of a
character or past the end, stands for the last place in front of it (`Text.roundDown`), and the text
in front of that one is the longest beginning of the source that the offset has room for
(`Text.byteSize_takeWithin`). The lines of a text are the lines that such a beginning closes, the
line on which it ends, and others (`Text.exists_lines_append`).
-/

namespace ThreeAddress

namespace Text

variable {separator : Char} {cs front more : List Char} {n : Nat}

/-! ## 1. The line on which a text ends -/

theorem split_flatMap_append {pieces : List (List Char)} (h : ∀ piece ∈ pieces, separator ∉ piece)
    (cs : List Char) :
    split separator (pieces.flatMap (· ++ [separator]) ++ cs) = pieces ++ split separator cs := by
  induction pieces with
  | nil => rfl
  | cons piece pieces ih =>
    rw [List.forall_mem_cons] at h
    rw [List.flatMap_cons, List.append_assoc, List.append_assoc, List.singleton_append,
      split_append_cons h.1, ih h.2, List.cons_append]

theorem count_flatMap_concat {pieces : List (List Char)} (h : ∀ piece ∈ pieces, separator ∉ piece) :
    (pieces.flatMap (· ++ [separator])).count separator = pieces.length := by
  induction pieces with
  | nil => rfl
  | cons piece pieces ih =>
    rw [List.forall_mem_cons] at h
    rw [List.flatMap_cons, List.count_append, List.count_append, List.count_eq_zero_of_not_mem h.1,
      List.count_singleton_self, ih h.2, List.length_cons, Nat.zero_add, Nat.add_comm]

/-- The first piece goes up to the first separator. -/
theorem exists_split (separator : Char) (cs : List Char) :
    ∃ pieces, split separator cs = cs.takeWhile (· ≠ separator) :: pieces := by
  induction cs with
  | nil => exact ⟨[], rfl⟩
  | cons c cs ih =>
    obtain ⟨pieces, hpieces⟩ := ih
    by_cases hc : c = separator
    · refine ⟨split separator cs, ?_⟩
      rw [split, if_pos hc, List.takeWhile_cons_of_neg (by simpa using hc)]
    · refine ⟨pieces, ?_⟩
      rw [split, if_neg hc, hpieces, List.takeWhile_cons_of_pos (by simpa using hc)]

theorem lastLine_append_of_not_mem (h : '\n' ∉ more) :
    lastLine (front ++ more) = lastLine front ++ more := by
  have hall : ∀ c ∈ more.reverse, decide (c ≠ '\n') = true := by
    intro c hc
    rw [decide_eq_true_iff]
    rintro rfl
    exact h (List.mem_reverse.mp hc)
  rw [lastLine, lastLine, List.reverse_append, List.takeWhile_append_of_pos hall,
    List.reverse_append, List.reverse_reverse]

/-- **The lines of a text, seen from a place in it.** In front of the place there are the lines that
have been closed, each with its line feed, and the beginning of one more. -/
theorem exists_lines_append (front back : List Char) :
    ∃ closed others, front = closed.flatMap (· ++ ['\n']) ++ lastLine front ∧
      closed.length = front.count '\n' ∧
      lines (front ++ back) =
        closed ++ (lastLine front ++ back.takeWhile (· ≠ '\n')) :: others := by
  obtain ⟨closed, last, rfl, hclosed, hlast⟩ := exists_pieces '\n' front
  have hlastLine : lastLine (closed.flatMap (· ++ ['\n']) ++ last) = last := by
    rw [lastLine_append_of_not_mem hlast]
    rcases List.eq_nil_or_concat closed with rfl | ⟨closed, piece, rfl⟩
    · rfl
    · simp [lastLine]
  have hcount : (closed.flatMap (· ++ ['\n']) ++ last).count '\n' = closed.length := by
    rw [List.count_append, List.count_eq_zero_of_not_mem hlast, count_flatMap_concat hclosed,
      Nat.add_zero]
  obtain ⟨others, hothers⟩ := exists_split '\n' (last ++ back)
  have hall : ∀ c ∈ last, decide (c ≠ '\n') = true := by
    intro c hc
    rw [decide_eq_true_iff]
    rintro rfl
    exact hlast hc
  rw [List.takeWhile_append_of_pos hall] at hothers
  refine ⟨closed, others, by rw [hlastLine], hcount.symm, ?_⟩
  rw [lines, List.append_assoc, split_flatMap_append hclosed, hothers, hlastLine]

/-! ## 2. Offsets and coordinates -/

/-- The offset at which a column of a line starts: every line in front of it has a line feed behind
it. -/
def offsetOf (cs : List Char) (line col : Nat) : Nat :=
  (((lines cs).take (line - 1)).map (byteSize · + 1)).sum +
    byteSize (((lines cs).getD (line - 1) []).take col)

theorem byteSize_flatMap_newline (closed : List (List Char)) :
    byteSize (closed.flatMap (· ++ ['\n'])) = (closed.map (byteSize · + 1)).sum := by
  induction closed with
  | nil => rfl
  | cons piece closed ih =>
    rw [List.flatMap_cons, byteSize_append, byteSize_append, ih, List.map_cons, List.sum_cons]
    rfl

/-- The line of a place begins with what is in front of the place. -/
theorem getD_lines_append (front back : List Char) :
    (lines (front ++ back)).getD (front.count '\n') [] =
      lastLine front ++ back.takeWhile (· ≠ '\n') := by
  obtain ⟨closed, others, -, hlength, hlines⟩ := exists_lines_append front back
  rw [hlines, ← hlength]
  simp

/-- **The coordinates of a place**, by the text in front of it. -/
theorem coordinates_append (front back : List Char) :
    front.count '\n' + 1 ≤ (lines (front ++ back)).length ∧
    (lastLine front).length ≤ ((lines (front ++ back)).getD (front.count '\n') []).length ∧
    offsetOf (front ++ back) (front.count '\n' + 1) (lastLine front).length = byteSize front := by
  obtain ⟨closed, others, hfront, hlength, hlines⟩ := exists_lines_append front back
  have hclosed : (lines (front ++ back)).take (front.count '\n') = closed := by
    rw [hlines, ← hlength, List.take_left]
  have hline := getD_lines_append front back
  refine ⟨?_, ?_, ?_⟩
  · rw [hlines, ← hlength]
    simp
  · rw [hline, List.length_append]
    exact Nat.le_add_right ..
  · rw [offsetOf, Nat.add_sub_cancel, hclosed, hline, List.take_left, ← byteSize_flatMap_newline,
      ← byteSize_append, ← hfront]

/-! ## 3. Boundaries -/

/-- A character starts at the offset, or the text ends there. -/
def IsBoundary (cs : List Char) (n : Nat) : Prop :=
  ∃ front, front <+: cs ∧ byteSize front = n

theorem isBoundary_iff : IsBoundary cs n ↔ (dropBytes? n cs).isSome = true := by
  simp only [Option.isSome_iff_exists, dropBytes?_eq_some_iff]
  constructor
  · rintro ⟨front, ⟨rest, rfl⟩, hsize⟩
    exact ⟨rest, front, rfl, hsize⟩
  · rintro ⟨rest, front, rfl, hsize⟩
    exact ⟨front, ⟨rest, rfl⟩, hsize⟩

instance (cs : List Char) : DecidablePred (IsBoundary cs) := fun _ =>
  decidable_of_iff _ isBoundary_iff.symm

/-- The last boundary up to an offset. -/
def roundDown (source : String) (offset : Nat) : Nat :=
  Nat.findGreatest (IsBoundary source.toList) (min offset source.utf8ByteSize)

theorem takeWithin_isPrefix (n : Nat) (cs : List Char) : takeWithin n cs <+: cs := by
  fun_induction takeWithin n cs with
  | case1 => exact List.nil_prefix
  | case2 n c cs hle ih => exact (List.prefix_cons_inj c).mpr ih
  | case3 => exact List.nil_prefix

theorem byteSize_takeWithin_le (n : Nat) (cs : List Char) : byteSize (takeWithin n cs) ≤ n := by
  fun_induction takeWithin n cs with
  | case1 => exact Nat.zero_le _
  | case2 n c cs hle ih =>
    rw [byteSize]
    omega
  | case3 => exact Nat.zero_le _

/-- Every beginning that there is room for begins the longest one. -/
theorem isPrefix_takeWithin (h : front <+: cs) (hsize : byteSize front ≤ n) :
    front <+: takeWithin n cs := by
  fun_induction takeWithin n cs generalizing front with
  | case1 => exact h
  | case2 n c cs hle ih =>
    cases front with
    | nil => exact List.nil_prefix
    | cons d front =>
      obtain ⟨rfl, hfront⟩ := List.cons_prefix_cons.mp h
      rw [byteSize] at hsize
      exact (List.prefix_cons_inj d).mpr (ih hfront (by omega))
  | case3 n c cs hgt =>
    cases front with
    | nil => exact List.nil_prefix
    | cons d front =>
      obtain ⟨rfl, -⟩ := List.cons_prefix_cons.mp h
      rw [byteSize] at hsize
      omega

theorem byteSize_le_of_isPrefix (h : front <+: more) : byteSize front ≤ byteSize more := by
  obtain ⟨rest, rfl⟩ := h
  rw [byteSize_append]
  exact Nat.le_add_right ..

theorem eq_of_isPrefix (h : front <+: more) (hsize : byteSize more ≤ byteSize front) :
    front = more := by
  obtain ⟨rest, rfl⟩ := h
  have hrest : rest.length = 0 := by
    have hle := length_le_byteSize rest
    rw [byteSize_append] at hsize
    omega
  rw [List.eq_nil_of_length_eq_zero hrest, List.append_nil]

theorem byteSize_takeWithin (source : String) (n : Nat) :
    byteSize (takeWithin n source.toList) = roundDown source n := by
  have hle := byteSize_takeWithin_le n source.toList
  have hbegins := takeWithin_isPrefix n source.toList
  have hsource := byteSize_le_of_isPrefix hbegins
  rw [byteSize_toList] at hsource
  refine (Nat.findGreatest_eq_iff.mpr ⟨by omega, fun _ => ⟨_, hbegins, rfl⟩, ?_⟩).symm
  rintro m hlt hm ⟨front, hfront, rfl⟩
  have hroom := byteSize_le_of_isPrefix (isPrefix_takeWithin hfront (n := n) (by omega))
  omega

end Text

/-! ## 4. The coordinates of a span -/

namespace Span

open Text

variable {source : String} {s s' : Span}

theorem before_isPrefix (s : Span) (source : String) : s.before source <+: source.toList :=
  takeWithin_isPrefix ..

theorem byteSize_before (s : Span) (source : String) :
    byteSize (s.before source) = roundDown source s.offset :=
  byteSize_takeWithin ..

/-- The text in front of a span that starts at a boundary. -/
theorem before_eq {front rest : List Char} (h : source.toList = front ++ rest)
    (hoffset : byteSize front = s.offset) : s.before source = front := by
  have hfront : front <+: source.toList := ⟨rest, h.symm⟩
  refine (eq_of_isPrefix (isPrefix_takeWithin hfront (Nat.le_of_eq hoffset)) ?_).symm
  rw [hoffset]
  exact byteSize_takeWithin_le ..

theorem before_mono (source : String) (h : s.offset ≤ s'.offset) :
    s.before source <+: s'.before source :=
  isPrefix_takeWithin (takeWithin_isPrefix ..) (Nat.le_trans (byteSize_takeWithin_le ..) h)

theorem before_eq_iff :
    s.before source = s'.before source ↔
    roundDown source s.offset = roundDown source s'.offset := by
  rw [← byteSize_before, ← byteSize_before]
  refine ⟨congrArg byteSize, fun h => ?_⟩
  rcases List.prefix_or_prefix_of_prefix (s.before_isPrefix source)
    (s'.before_isPrefix source) with hle | hle
  · exact eq_of_isPrefix hle (Nat.le_of_eq h.symm)
  · exact (eq_of_isPrefix hle (Nat.le_of_eq h)).symm

/-- The coordinates of a span lead back to the place that its offset stands for. -/
theorem coordinates_lineCol (s : Span) (source : String) :
    (s.lineCol source).1 ≤ (lines source.toList).length ∧
    (s.lineCol source).2 ≤ ((lines source.toList).getD ((s.lineCol source).1 - 1) []).length ∧
    roundDown source s.offset =
      offsetOf source.toList (s.lineCol source).1 (s.lineCol source).2 := by
  obtain ⟨rest, hrest⟩ := s.before_isPrefix source
  obtain ⟨hline, hcol, hoffset⟩ := coordinates_append (s.before source) rest
  rw [hrest] at hline hcol hoffset
  rw [← byteSize_before]
  exact ⟨hline, hcol, hoffset.symm⟩

theorem lineCol_mono (h : s.offset ≤ s'.offset) :
    toLex (s.lineCol source) ≤ toLex (s'.lineCol source) := by
  obtain ⟨more, hmore⟩ := before_mono source h
  rw [lineCol, lineCol, ← hmore, Prod.Lex.toLex_le_toLex]
  by_cases hmem : '\n' ∈ more
  · left
    rw [List.count_append]
    have hpos := List.count_pos_iff.mpr hmem
    omega
  · right
    rw [List.count_append, List.count_eq_zero_of_not_mem hmem, lastLine_append_of_not_mem hmem,
      List.length_append]
    exact ⟨rfl, Nat.le_add_right ..⟩

/-- **Lines and columns are exact coordinates.** The line is one of the source and the column is on
it, and both lead back to the place that the offset stands for. So they tell two places apart, and
they keep the order. -/
theorem lineCol_coordinates (source : String) (s : Span) :
    1 ≤ (s.lineCol source).1 ∧ (s.lineCol source).1 ≤ (lines source.toList).length ∧
    (s.lineCol source).2 ≤ ((lines source.toList).getD ((s.lineCol source).1 - 1) []).length ∧
    roundDown source s.offset = offsetOf source.toList (s.lineCol source).1 (s.lineCol source).2 ∧
    ∀ s' : Span,
      (s.lineCol source = s'.lineCol source ↔
        roundDown source s.offset = roundDown source s'.offset) ∧
      (s.offset ≤ s'.offset → toLex (s.lineCol source) ≤ toLex (s'.lineCol source)) := by
  obtain ⟨hline, hcol, hoffset⟩ := s.coordinates_lineCol source
  refine ⟨Nat.le_add_left .., hline, hcol, hoffset,
    fun s' => ⟨⟨fun h => ?_, fun h => ?_⟩, lineCol_mono⟩⟩
  · rw [hoffset, h, ← (s'.coordinates_lineCol source).2.2]
  · rw [lineCol, lineCol, before_eq_iff.mpr h]

end Span

end ThreeAddress
