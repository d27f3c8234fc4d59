import XmlOutline.Text.Unassigned
import XmlOutline.Text.ExtendingMark

/-!
# Invisible characters

A character is invisible if a reader cannot make it out where it stands.  By the
properties of Unicode 17.0 these are the controls, the format characters, the
separators other than the space, the characters of private use, the code points
without a character, the extending marks, and the Hangul fillers, which are
letters that no one draws.

Main statements: `isInvisible_eq_true_iff`, which says that a character is
invisible exactly if a range of one of these classes has it, and
`isInvisible_eq_false_of_ascii`, which says that the characters of ASCII from the
space to the tilde are visible.
-/

namespace XmlOutline

namespace Text

/-- Controls (`Cc`) and format characters (`Cf`). -/
def controls : CodeRanges :=
  [(0x0, 0x1F), (0x7F, 0x9F), (0xAD, 0xAD), (0x600, 0x605), (0x61C, 0x61C), (0x6DD, 0x6DD),
   (0x70F, 0x70F), (0x890, 0x891), (0x8E2, 0x8E2), (0x180E, 0x180E), (0x200B, 0x200F),
   (0x202A, 0x202E), (0x2060, 0x2064), (0x2066, 0x206F), (0xFEFF, 0xFEFF), (0xFFF9, 0xFFFB),
   (0x110BD, 0x110BD), (0x110CD, 0x110CD), (0x13430, 0x1343F), (0x1BCA0, 0x1BCA3),
   (0x1D173, 0x1D17A), (0xE0001, 0xE0001), (0xE0020, 0xE007F)]

/-- Separators of words, lines and paragraphs (`Zs`, `Zl` and `Zp`), less the space. -/
def separators : CodeRanges :=
  [(0xA0, 0xA0), (0x1680, 0x1680), (0x2000, 0x200A), (0x2028, 0x2029), (0x202F, 0x202F),
   (0x205F, 0x205F), (0x3000, 0x3000)]

/-- Code points of private use (`Co`). -/
def privateUse : CodeRanges :=
  [(0xE000, 0xF8FF), (0xF0000, 0xFFFFD), (0x100000, 0x10FFFD)]

/-- The letters with the property `Default_Ignorable_Code_Point`: they hold the
place of a missing part of a Hangul syllable. -/
def hangulFillers : CodeRanges :=
  [(0x115F, 0x1160), (0x3164, 0x3164), (0xFFA0, 0xFFA0)]

/-- The classes of characters that cannot be made out. -/
def invisibleClasses : List CodeRanges :=
  [controls, separators, privateUse, unassigned, extendingMarks, hangulFillers]

/-- Characters that cannot be made out where they stand. -/
def isInvisible (c : Char) : Bool := invisibleClasses.any (·.contains c.toNat)

theorem isAscending_of_mem_invisibleClasses {ranges : CodeRanges}
    (h : ranges ∈ invisibleClasses) : ranges.isAscending = true :=
  have all : invisibleClasses.all CodeRanges.isAscending = true := by decide +kernel
  List.all_eq_true.1 all ranges h

/-- A character is invisible exactly if a range of one of the classes has it. -/
theorem isInvisible_eq_true_iff {c : Char} :
    isInvisible c = true ↔
      ∃ ranges ∈ invisibleClasses, ∃ range ∈ ranges, range.1 ≤ c.toNat ∧ c.toNat ≤ range.2 := by
  simp only [isInvisible, List.any_eq_true]
  constructor
  · rintro ⟨ranges, mem, found⟩
    exact ⟨ranges, mem,
      (CodeRanges.contains_eq_true_iff (isAscending_of_mem_invisibleClasses mem)).1 found⟩
  · rintro ⟨ranges, mem, inside⟩
    exact ⟨ranges, mem,
      (CodeRanges.contains_eq_true_iff (isAscending_of_mem_invisibleClasses mem)).2 inside⟩

/-- The characters of ASCII from the space to the tilde are visible. -/
theorem isInvisible_eq_false_of_ascii {c : Char} (low : 0x20 ≤ c.toNat) (high : c.toNat < 0x7F) :
    isInvisible c = false := by
  have all : ∀ code < 0x7F, 0x20 ≤ code →
      invisibleClasses.any (·.contains code) = false := by decide +kernel
  exact all c.toNat high low

end Text

end XmlOutline
