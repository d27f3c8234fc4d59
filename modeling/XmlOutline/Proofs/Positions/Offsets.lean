import XmlOutline.Position
import Mathlib.Data.List.Induction

/-!
# The position of an offset

`Position.ofOffset` walks along a text until it stands at an offset.  An offset at which
the text splits is met, and the position is the one behind what was passed
(`ofOffset_size`).  An offset inside a code point is never met, and neither is one beyond
the text: the walk then ends behind the whole text (`ofOffset_of_not_start`), which is the
position of no code point in it (`after_ne_of_append_cons`).

The position behind a text can be told by counting (`row_after`, `column_after_first`),
and every code point moves it on (`Precedes`).
-/

namespace XmlOutline

namespace Position

variable {here : Position} {text before rest : Text} {target offset : Nat}

/-! ## Where the walk ends -/

theorem seek_size (before rest : Text) (offset : Nat) (here : Position) :
    seek (offset + before.size) offset here (before ++ rest) = here.after before := by
  induction before generalizing offset here with
  | nil =>
      cases rest with
      | nil => rfl
      | cons c rest => exact if_pos rfl
  | cons c before ih =>
      have hsize : offset ≠ offset + Text.size (c :: before) := by
        have := c.utf8Size_pos
        simp only [Text.size_cons]
        omega
      have hbehind : offset + Text.size (c :: before) = offset + c.utf8Size + Text.size before := by
        simp only [Text.size_cons]
        omega
      rw [List.cons_append, seek, if_neg hsize, hbehind, ih]
      rfl

/-- The offset is where a code point of the text starts. -/
def IsStart (text : Text) (offset : Nat) : Prop :=
  ∃ (before : Text) (c : Char) (rest : Text), text = before ++ c :: rest ∧ before.size = offset

theorem seek_of_not_start (h : ∀ before c rest, text = before ++ c :: rest →
    offset + Text.size before ≠ target) : seek target offset here text = here.after text := by
  induction text generalizing offset here with
  | nil => rfl
  | cons c text ih =>
      have hhere : offset ≠ target := h [] c text rfl
      have hlater : ∀ before d rest, text = before ++ d :: rest →
          offset + c.utf8Size + Text.size before ≠ target := by
        intro before d rest htext
        have hcons := h (c :: before) d rest (by rw [htext, List.cons_append])
        rwa [Text.size_cons, ← Nat.add_assoc] at hcons
      rw [seek, if_neg hhere, ih hlater]
      rfl

/-- The position of an offset at which the text splits is the one behind the first
part. -/
theorem ofOffset_size (before rest : Text) :
    ofOffset (before ++ rest) before.size = first.after before := by
  have h := seek_size before rest 0 first
  rwa [Nat.zero_add] at h

/-- The position of any other offset is the one behind the whole text. -/
theorem ofOffset_of_not_start (h : ¬ IsStart text offset) :
    ofOffset text offset = first.after text := by
  refine seek_of_not_start fun before c rest htext hsize => h ⟨before, c, rest, htext, ?_⟩
  rw [← hsize, Nat.zero_add]

/-! ## Counting -/

theorem row_after (here : Position) (text : Text) :
    (here.after text).row = here.row + text.count '\n' := by
  induction text generalizing here with
  | nil => rfl
  | cons c text ih =>
      rw [after_cons, ih, List.count_cons]
      by_cases hc : c = '\n'
      · simp only [next, hc, if_true, beq_self_eq_true]
        omega
      · simp [next, hc]

/-- Columns count what stands behind the last line feed. -/
theorem column_after_first (text : Text) :
    (first.after text).column = (text.reverse.takeWhile (· != '\n')).length + 1 := by
  induction text using List.reverseRecOn with
  | nil => rfl
  | append_singleton text c ih =>
      rw [after_append, List.reverse_append]
      show ((first.after text).next c).column = _
      by_cases hc : c = '\n'
      · simp [next, hc]
      · simp [next, hc, ih]

/-! ## Order -/

/-- The first position comes before the second one. -/
def Precedes (first second : Position) : Prop :=
  first.row < second.row ∨ first.row = second.row ∧ first.column < second.column

theorem Precedes.trans {first second third : Position} (h : first.Precedes second)
    (h' : second.Precedes third) : first.Precedes third := by
  unfold Precedes at *
  omega

theorem Precedes.ne {first second : Position} (h : first.Precedes second) : first ≠ second := by
  rintro rfl
  unfold Precedes at h
  omega

theorem precedes_next (here : Position) (c : Char) : here.Precedes (here.next c) := by
  by_cases hc : c = '\n'
  · simp [Precedes, next, hc]
  · simp [Precedes, next, hc]

/-- Behind a text that is not empty comes a later position. -/
theorem precedes_after (here : Position) (hne : text ≠ []) :
    here.Precedes (here.after text) := by
  induction text generalizing here with
  | nil => exact absurd rfl hne
  | cons c text ih =>
      cases text with
      | nil => exact precedes_next here c
      | cons d text => exact (precedes_next here c).trans (ih (here.next c) (List.cons_ne_nil _ _))

/-- The position behind a text is the position of none of its code points. -/
theorem after_ne_of_append_cons {c : Char} (htext : text = before ++ c :: rest) :
    here.after before ≠ here.after text := by
  rw [htext, after_append]
  exact (precedes_after _ (List.cons_ne_nil c rest)).ne

end Position

end XmlOutline
