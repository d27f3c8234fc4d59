/-!
# Text measured in bytes

A text is the list of its code points.  Offsets and lengths, however, count the
bytes of its UTF-8 encoding, so an offset may fall inside a code point, and a
slice that starts or ends there does not exist.

Main statement: `slice?_eq_some_iff`, which says that a slice between two
offsets exists exactly when the text splits at both of them.
-/

namespace XmlOutline

/-- A text is the list of its code points. -/
abbrev Text := List Char

namespace Text

/-! ## Size -/

/-- The number of bytes of the UTF-8 encoding. -/
def size : Text → Nat
  | [] => 0
  | c :: rest => c.utf8Size + size rest

@[simp] theorem size_nil : size [] = 0 := rfl

@[simp] theorem size_cons (c : Char) (rest : Text) :
    size (c :: rest) = c.utf8Size + size rest := rfl

@[simp] theorem size_append (first second : Text) :
    size (first ++ second) = size first + size second := by
  induction first with
  | nil => simp
  | cons c rest ih => simp only [List.cons_append, size_cons, ih]; omega

theorem size_eq_zero_iff {text : Text} : size text = 0 ↔ text = [] := by
  cases text with
  | nil => simp
  | cons c rest =>
      have := c.utf8Size_pos
      simp only [size_cons, reduceCtorEq, iff_false]
      omega

/-! ## Slices -/

/-- The longest beginning of a text that fits into `budget` bytes. -/
def takeSize : Nat → Text → Text
  | _, [] => []
  | budget, c :: rest =>
      if c.utf8Size ≤ budget then c :: takeSize (budget - c.utf8Size) rest else []

/-- What follows the first `budget` bytes, if a code point ends there. -/
def dropSize? : Nat → Text → Option Text
  | 0, text => some text
  | _ + 1, [] => none
  | budget + 1, c :: rest =>
      if c.utf8Size ≤ budget + 1 then dropSize? (budget + 1 - c.utf8Size) rest else none

/-- The text between two byte offsets, if both are boundaries of code points
and come in this order. -/
def slice? (text : Text) (start stop : Nat) : Option Text := do
  let rest ← dropSize? start text
  let word := takeSize (stop - start) rest
  if start + size word = stop then some word else none

@[simp] theorem takeSize_size_append (word rest : Text) :
    takeSize (size word) (word ++ rest) = word := by
  induction word with
  | nil =>
      cases rest with
      | nil => rfl
      | cons c rest =>
          have := c.utf8Size_pos
          simp only [List.nil_append, takeSize, size_nil]
          rw [if_neg (by omega)]
  | cons c word ih =>
      simp only [List.cons_append, takeSize, size_cons]
      rw [if_pos (by omega), Nat.add_sub_cancel_left, ih]

/-- Taking yields a beginning of the text. -/
theorem exists_eq_takeSize_append (budget : Nat) (text : Text) :
    ∃ rest, text = takeSize budget text ++ rest := by
  induction text generalizing budget with
  | nil => exact ⟨[], rfl⟩
  | cons c text ih =>
      simp only [takeSize]
      split
      · obtain ⟨rest, hrest⟩ := ih (budget - c.utf8Size)
        exact ⟨rest, by rw [List.cons_append, ← hrest]⟩
      · exact ⟨c :: text, rfl⟩

/-- Dropping succeeds exactly where the text splits. -/
theorem dropSize?_eq_some_iff {budget : Nat} {text rest : Text} :
    dropSize? budget text = some rest ↔ ∃ word, text = word ++ rest ∧ size word = budget := by
  induction text generalizing budget with
  | nil =>
      cases budget with
      | zero =>
          simp only [dropSize?, Option.some.injEq]
          constructor
          · rintro rfl
            exact ⟨[], rfl, rfl⟩
          · rintro ⟨word, htext, hsize⟩
            rw [size_eq_zero_iff.mp hsize] at htext
            exact htext
      | succ budget =>
          simp only [dropSize?, reduceCtorEq, false_iff]
          rintro ⟨word, htext, hsize⟩
          rw [(List.append_eq_nil_iff.mp htext.symm).1] at hsize
          simp at hsize
  | cons c text ih =>
      cases budget with
      | zero =>
          simp only [dropSize?, Option.some.injEq]
          constructor
          · rintro rfl
            exact ⟨[], rfl, rfl⟩
          · rintro ⟨word, htext, hsize⟩
            rw [size_eq_zero_iff.mp hsize] at htext
            exact htext
      | succ budget =>
          simp only [dropSize?]
          split
          · rename_i hfits
            rw [ih]
            constructor
            · rintro ⟨word, rfl, hsize⟩
              exact ⟨c :: word, rfl, by simp only [size_cons]; omega⟩
            · rintro ⟨word, htext, hsize⟩
              cases word with
              | nil => simp at hsize
              | cons d word =>
                  obtain ⟨rfl, rfl⟩ := List.cons.inj htext
                  exact ⟨word, rfl, by simp only [size_cons] at hsize; omega⟩
          · rename_i hfits
            simp only [reduceCtorEq, false_iff]
            rintro ⟨word, htext, hsize⟩
            cases word with
            | nil => simp at hsize
            | cons d word =>
                obtain ⟨rfl, rfl⟩ := List.cons.inj htext
                simp only [size_cons] at hsize
                omega

/-- A slice exists exactly when the text splits at both offsets, and then it is
the part in between. -/
theorem slice?_eq_some_iff {text word : Text} {start stop : Nat} :
    text.slice? start stop = some word ↔
      ∃ before after, text = before ++ word ++ after ∧
        size before = start ∧ size before + size word = stop := by
  constructor
  · intro h
    cases hdrop : dropSize? start text with
    | none => simp [slice?, hdrop] at h
    | some rest =>
        simp only [slice?, hdrop, Option.bind_eq_bind, Option.bind_some,
          Option.ite_none_right_eq_some, Option.some.injEq] at h
        obtain ⟨hsize, rfl⟩ := h
        obtain ⟨before, rfl, rfl⟩ := dropSize?_eq_some_iff.mp hdrop
        obtain ⟨after, hafter⟩ := exists_eq_takeSize_append (stop - size before) rest
        exact ⟨before, after, by rw [List.append_assoc, ← hafter], rfl, hsize⟩
  · rintro ⟨before, after, rfl, rfl, rfl⟩
    have hdrop : dropSize? (size before) (before ++ (word ++ after)) = some (word ++ after) :=
      dropSize?_eq_some_iff.mpr ⟨before, rfl, rfl⟩
    simp [slice?, hdrop]

/-! ## Breaking and repeating -/

/-- Splits a text before its first suffix that passes the test. -/
def breakAt (test : Text → Bool) : Text → Text × Text
  | [] => ([], [])
  | c :: rest =>
      if test (c :: rest) then ([], c :: rest)
      else
        let broken := breakAt test rest
        (c :: broken.1, broken.2)

theorem breakAt_append (test : Text → Bool) (text : Text) :
    (breakAt test text).1 ++ (breakAt test text).2 = text := by
  induction text with
  | nil => rfl
  | cons c rest ih =>
      simp only [breakAt]
      split
      · rfl
      · simp [ih]

/-- Does the word occur anywhere in the text? -/
def occurs (word : Text) : Text → Bool
  | [] => word.isEmpty
  | c :: rest => word.isPrefixOf (c :: rest) || occurs word rest

theorem occurs_eq_true_iff {word text : Text} : occurs word text = true ↔ word <:+: text := by
  induction text with
  | nil => simp [occurs]
  | cons c rest ih => simp [occurs, ih, List.infix_cons_iff]

/-- The lines of a text.  A line ends at a line feed, or at a carriage return
with a line feed behind it; a carriage return elsewhere is part of its line,
and a line end at the very end starts no further line. -/
def lines : Text → List Text
  | [] => []
  | '\n' :: rest => [] :: lines rest
  | '\r' :: '\n' :: rest => [] :: lines rest
  | c :: rest => match lines rest with
      | [] => [[c]]
      | line :: others => (c :: line) :: others

/-- The text written `count` times. -/
def times (count : Nat) (text : Text) : Text := (List.replicate count text).flatten

end Text

end XmlOutline
