import XmlOutline.Text.Basic

/-!
# Blank characters

A character is blank if Unicode gives it the property `White_Space`.  This is a
larger class than the four characters that separate markup: it holds the
no-break space, for example.

What trimming leaves is described without a search (`Text.TrimsTo`), and it is the
one text of this description: `Text.trim_eq_iff`.
-/

namespace XmlOutline

/-! ## Leaving out what passes a test in front -/

section

variable {α : Type} {test : α → Bool} {items : List α}

theorem dropWhile_eq_self (hfirst : ∀ item ∈ items.head?, test item = false) :
    items.dropWhile test = items := by
  cases items with
  | nil => rfl
  | cons item rest => exact List.dropWhile_cons_of_neg (by simp [hfirst item rfl])

theorem head?_dropWhile : ∀ item ∈ (items.dropWhile test).head?, test item = false := by
  intro item hitem
  have hnot := List.head?_dropWhile_not test items
  rw [Option.mem_def.mp hitem] at hnot
  exact hnot

end

namespace Text

/-! ## Blank characters and texts -/

/-- Characters with the Unicode property `White_Space`. -/
def isBlankChar (c : Char) : Bool :=
  let code := c.toNat
  (0x09 ≤ code && code ≤ 0x0D) || code == 0x20 || code == 0x85 || code == 0xA0 ||
    code == 0x1680 || (0x2000 ≤ code && code ≤ 0x200A) || code == 0x2028 || code == 0x2029 ||
    code == 0x202F || code == 0x205F || code == 0x3000

/-- A text is blank if all its characters are; the empty text is blank. -/
def isBlank (text : Text) : Bool := text.all isBlankChar

/-- Drops the blank characters at the end. -/
def trimEnd (text : Text) : Text := (text.reverse.dropWhile isBlankChar).reverse

/-- Drops the blank characters at both ends. -/
def trim (text : Text) : Text := trimEnd (text.dropWhile isBlankChar)

/-! ## What is left -/

/-- The second text is what is left of the first one without the blanks at its two ends. -/
structure TrimsTo (text kept : Text) : Prop where
  /-- Only blanks are left out, before and behind what is kept. -/
  split : ∃ before after : Text, text = before ++ kept ++ after ∧
    isBlank before = true ∧ isBlank after = true
  /-- What is kept does not start with a blank. -/
  first : ∀ c ∈ kept.head?, isBlankChar c = false
  /-- Nor does it end with one. -/
  last : ∀ c ∈ kept.getLast?, isBlankChar c = false

private theorem dropWhile_of_blank {blanks : Text} (h : isBlank blanks = true) (text : Text) :
    (blanks ++ text).dropWhile isBlankChar = text.dropWhile isBlankChar :=
  List.dropWhile_append_of_pos (List.all_eq_true.mp h)

/-- Dropping the blanks at the end leaves what stands before them. -/
theorem trimEnd_eq_iff {text shown : Text} :
    trimEnd text = shown ↔
      ∃ blanks, text = shown ++ blanks ∧ isBlank blanks = true ∧
        ∀ c ∈ shown.getLast?, isBlankChar c = false := by
  constructor
  · rintro rfl
    refine ⟨(text.reverse.takeWhile isBlankChar).reverse, ?_, ?_, fun c hc => ?_⟩
    · rw [trimEnd, ← List.reverse_append, List.takeWhile_append_dropWhile, List.reverse_reverse]
    · rw [isBlank, List.all_reverse]
      exact List.all_takeWhile
    · rw [trimEnd, List.getLast?_reverse] at hc
      exact head?_dropWhile c hc
  · rintro ⟨blanks, rfl, hblanks, hlast⟩
    have hreverse : isBlank blanks.reverse = true := by rwa [isBlank, List.all_reverse]
    rw [← List.head?_reverse] at hlast
    rw [trimEnd, List.reverse_append, dropWhile_of_blank hreverse, dropWhile_eq_self hlast,
      List.reverse_reverse]

/-- Trimming leaves the one text that is left without the blanks at both ends. -/
theorem trim_eq_iff {text kept : Text} : trim text = kept ↔ TrimsTo text kept := by
  rw [trim, trimEnd_eq_iff]
  constructor
  · rintro ⟨after, hrest, hafter, hlast⟩
    refine ⟨⟨text.takeWhile isBlankChar, after, ?_, List.all_takeWhile, hafter⟩,
      fun c hc => ?_, hlast⟩
    · rw [List.append_assoc, ← hrest, List.takeWhile_append_dropWhile]
    · have hhead : c ∈ (text.dropWhile isBlankChar).head? := by
        rw [hrest, List.head?_append, Option.mem_def.mp hc]
        rfl
      exact head?_dropWhile c hhead
  · rintro ⟨⟨before, after, rfl, hbefore, hafter⟩, hfirst, hlast⟩
    rw [List.append_assoc, dropWhile_of_blank hbefore]
    cases kept with
    | nil =>
        -- the whole text is blank
        have hnil := dropWhile_of_blank hafter []
        rw [List.append_nil] at hnil
        exact ⟨[], hnil, rfl, hlast⟩
    | cons c rest =>
        have hkept : ∀ d ∈ (c :: rest ++ after).head?, isBlankChar d = false := hfirst
        exact ⟨after, dropWhile_eq_self hkept, hafter, hlast⟩

end Text

end XmlOutline
