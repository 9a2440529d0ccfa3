import ThreeAddress.Text.Alphabetic
import ThreeAddress.Text.WhiteSpace

/-!
# The classes of characters are apart

A class of characters is a list of ranges of code points. Two classes have no character in common if
no range of the one meets a range of the other, and that is a finite check (`CodeRange.apart`). By
it, no letter is a digit, and white space is neither.

The tests of a scanner stand in some order, and the lemmas here say that the order does not matter.
-/

namespace ThreeAddress.Text

theorem CodeRange.exists_of_covers {ranges : List CodeRange} {n : Nat}
    (h : covers ranges n = true) : ∃ r ∈ ranges, r.first ≤ n ∧ n ≤ r.last := by
  induction ranges with
  | nil => cases h
  | cons r ranges ih =>
    rw [covers] at h
    split at h
    · cases h
    · split at h
      · exact ⟨r, List.mem_cons_self, by omega, by assumption⟩
      · obtain ⟨r', hr', hn⟩ := ih h
        exact ⟨r', List.mem_cons_of_mem r hr', hn⟩

/-- No code point is in a range of both lists. -/
def CodeRange.apart (rs ss : List CodeRange) : Bool :=
  rs.all fun r => ss.all fun s => r.last < s.first || s.last < r.first

theorem CodeRange.covers_of_apart {rs ss : List CodeRange} {n : Nat} (h : apart rs ss = true)
    (hn : covers rs n = true) : covers ss n = false := by
  rw [← Bool.not_eq_true]
  intro hn'
  obtain ⟨r, hr, hfirst, hlast⟩ := exists_of_covers hn
  obtain ⟨s, hs, hfirst', hlast'⟩ := exists_of_covers hn'
  have hrs := List.all_eq_true.mp (List.all_eq_true.mp h r hr) s hs
  simp only [Bool.or_eq_true, decide_eq_true_eq] at hrs
  omega

theorem covers_of_isDigit {c : Char} (h : c.isDigit = true) :
    CodeRange.covers [⟨0x30, 0x39⟩] c.toNat = true := by
  simp only [Char.isDigit, Bool.and_eq_true, decide_eq_true_eq, ge_iff_le] at h
  have hfirst : ¬ c.toNat < 0x30 := Nat.not_lt.mpr (UInt32.le_iff_toNat_le.mp h.1)
  have hlast : c.toNat ≤ 0x39 := UInt32.le_iff_toNat_le.mp h.2
  rw [CodeRange.covers, if_neg hfirst, if_pos hlast]

theorem isWhiteSpace_of_isDigit {c : Char} (h : c.isDigit = true) : isWhiteSpace c = false :=
  CodeRange.covers_of_apart (by decide) (covers_of_isDigit h)

theorem isAlphabetic_of_isDigit {c : Char} (h : c.isDigit = true) : isAlphabetic c = false :=
  CodeRange.covers_of_apart (by decide +kernel) (covers_of_isDigit h)

theorem isDigit_of_isAlphabetic {c : Char} (h : isAlphabetic c = true) : c.isDigit = false := by
  rw [← Bool.not_eq_true]
  intro hdigit
  rw [isAlphabetic_of_isDigit hdigit] at h
  cases h

theorem isWhiteSpace_of_isAlphabetic {c : Char} (h : isAlphabetic c = true) :
    isWhiteSpace c = false :=
  CodeRange.covers_of_apart (by decide +kernel) h

end ThreeAddress.Text
