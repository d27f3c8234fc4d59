/-!
# Classes of characters as ranges

A large class of characters is a list of closed ranges of code points, ascending
and apart.  A code point below the first range is therefore below all of them,
and the search for it ends there: `contains_eq_true_iff` says that this loses
nothing.
-/

namespace XmlOutline

namespace Text

/-- Closed ranges of code points, each as its first and its last one. -/
abbrev CodeRanges := List (Nat × Nat)

namespace CodeRanges

/-- Is the code point in one of the ranges?  They are taken to be ascending. -/
def contains : CodeRanges → Nat → Bool
  | [], _ => false
  | (low, high) :: rest, code => low ≤ code && (code ≤ high || contains rest code)

/-- Each range starts at or above the bound, holds a code point, and leaves a gap
before the next one. -/
def isAscendingFrom : Nat → CodeRanges → Bool
  | _, [] => true
  | bound, (low, high) :: rest =>
      bound ≤ low && low ≤ high && isAscendingFrom (high + 2) rest

/-- The ranges are ascending and apart, so that there is one list for one class. -/
def isAscending (ranges : CodeRanges) : Bool := isAscendingFrom 0 ranges

/-! ## Membership -/

private theorem le_low_of_mem {bound : Nat} {ranges : CodeRanges}
    (h : isAscendingFrom bound ranges = true) {range : Nat × Nat} (mem : range ∈ ranges) :
    bound ≤ range.1 := by
  induction ranges generalizing bound with
  | nil => cases mem
  | cons first rest ih =>
      obtain ⟨low, high⟩ := first
      simp only [isAscendingFrom, Bool.and_eq_true, decide_eq_true_eq] at h
      rcases List.mem_cons.1 mem with rfl | mem
      · exact h.1.1
      · have := ih h.2 mem
        omega

private theorem contains_iff_of_isAscendingFrom {bound : Nat} {ranges : CodeRanges}
    (h : isAscendingFrom bound ranges = true) {code : Nat} :
    contains ranges code = true ↔ ∃ range ∈ ranges, range.1 ≤ code ∧ code ≤ range.2 := by
  induction ranges generalizing bound with
  | nil => simp [contains]
  | cons first rest ih =>
      obtain ⟨low, high⟩ := first
      simp only [isAscendingFrom, Bool.and_eq_true, decide_eq_true_eq] at h
      simp only [contains, Bool.and_eq_true, Bool.or_eq_true, decide_eq_true_eq, ih h.2]
      constructor
      · rintro ⟨above, below | ⟨range, mem, inside⟩⟩
        · exact ⟨(low, high), List.mem_cons_self, above, below⟩
        · exact ⟨range, List.mem_cons_of_mem _ mem, inside⟩
      · rintro ⟨range, mem, above, below⟩
        rcases List.mem_cons.1 mem with rfl | mem
        · exact ⟨above, Or.inl below⟩
        · have := le_low_of_mem h.2 mem
          exact ⟨by omega, Or.inr ⟨range, mem, above, below⟩⟩

/-- In ascending ranges the search finds a code point exactly if a range has it. -/
theorem contains_eq_true_iff {ranges : CodeRanges} (h : ranges.isAscending = true) {code : Nat} :
    ranges.contains code = true ↔ ∃ range ∈ ranges, range.1 ≤ code ∧ code ≤ range.2 :=
  contains_iff_of_isAscendingFrom h

end CodeRanges

end Text

end XmlOutline
