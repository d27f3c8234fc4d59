import XmlOutline.Text.Basic

/-!
# Select Graphic Rendition

Terminals change the look of text at control sequences of the form
`ESC [ parameters m`, where the parameters are digits and semicolons.  This file
writes such sequences around a text and removes them from one.

Only a complete sequence is removed: where one is broken off, its `ESC [` is
kept and reading goes on right behind it, so what follows can still be the
start of another one.
-/

namespace XmlOutline.Sgr

/-- The escape character. -/
def escape : Char := '\x1b'

/-- Characters that parameters are made of. -/
def isParameter (c : Char) : Bool := ('0' ≤ c && c ≤ '9') || c == ';'

theorem isParameter_eq_true_iff {c : Char} :
    isParameter c = true ↔ c.isDigit = true ∨ c = ';' := by
  have hdigit : (decide ('0' ≤ c) && decide (c ≤ '9')) = c.isDigit := rfl
  rw [isParameter, hdigit, Bool.or_eq_true, beq_iff_eq]

/-- The control sequence with the given parameters. -/
def sequence (parameters : Text) : Text := escape :: '[' :: parameters ++ ['m']

/-- A text between a sequence with the given parameters and one that resets. -/
def wrap (parameters text : Text) : Text :=
  sequence parameters ++ text ++ sequence ['0']

/-- The word is a control sequence. -/
def IsSequence (word : Text) : Prop :=
  ∃ parameters : Text, (∀ c ∈ parameters, isParameter c = true) ∧ word = sequence parameters

/-- What follows the control sequence that a text starts with, if it does. -/
def dropSequence? : Text → Option Text
  | c :: '[' :: rest =>
      if c = escape then
        match rest.dropWhile isParameter with
        | 'm' :: after => some after
        | _ => none
      else none
  | _ => none

/-- A text starts with a control sequence exactly if that can be dropped. -/
theorem dropSequence?_eq_some_iff {text after : Text} :
    dropSequence? text = some after ↔ ∃ word, IsSequence word ∧ text = word ++ after := by
  constructor
  · intro h
    match text with
    | [] => simp [dropSequence?] at h
    | [c] => simp [dropSequence?] at h
    | c :: d :: rest =>
        by_cases hd : d = '['
        · subst hd
          simp only [dropSequence?, Option.ite_none_right_eq_some] at h
          obtain ⟨rfl, h⟩ := h
          split at h
          · rename_i tail hdrop
            cases h
            refine ⟨_, ⟨rest.takeWhile isParameter, ?_, rfl⟩, ?_⟩
            · intro c hc
              exact List.all_eq_true.mp List.all_takeWhile c hc
            · have hsplit := (List.takeWhile_append_dropWhile (p := isParameter) (l := rest)).symm
              rw [hdrop] at hsplit
              simpa [sequence] using hsplit
          · cases h
        · simp [dropSequence?, hd] at h
  · rintro ⟨word, ⟨parameters, hparameters, rfl⟩, rfl⟩
    have hm : isParameter 'm' = false := by decide
    simp [sequence, dropSequence?, List.dropWhile_append_of_pos hparameters, hm]

theorem length_lt_of_dropSequence? {text after : Text} (h : dropSequence? text = some after) :
    after.length < text.length := by
  obtain ⟨word, ⟨parameters, _, rfl⟩, rfl⟩ := dropSequence?_eq_some_iff.mp h
  simp only [sequence, List.cons_append, List.length_cons, List.length_append]
  omega

/-- Removes all control sequences. -/
def strip (text : Text) : Text :=
  match h : dropSequence? text with
  | some after =>
      have _hshorter := length_lt_of_dropSequence? h
      strip after
  | none =>
      match text with
      | [] => []
      | c :: rest => c :: strip rest
termination_by text.length

end XmlOutline.Sgr
