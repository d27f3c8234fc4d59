import XmlOutline.Text.Basic

/-!
# Positions

A position names a place in a text by its row and its column, both counted from
one.  Columns count code points, and a line feed ends a row.
-/

namespace XmlOutline

/-- A row and a column, both counted from one. -/
structure Position where
  row : Nat
  column : Nat
deriving DecidableEq

namespace Position

/-- The position of the first code point of a text. -/
def first : Position := ⟨1, 1⟩

/-- The position behind one code point. -/
def next (here : Position) (c : Char) : Position :=
  if c = '\n' then ⟨here.row + 1, 1⟩ else ⟨here.row, here.column + 1⟩

/-- The position behind a text that starts here. -/
def after (here : Position) (text : Text) : Position := text.foldl next here

@[simp] theorem after_nil (here : Position) : here.after [] = here := rfl

@[simp] theorem after_cons (here : Position) (c : Char) (rest : Text) :
    here.after (c :: rest) = (here.next c).after rest := rfl

@[simp] theorem after_append (here : Position) (first second : Text) :
    here.after (first ++ second) = (here.after first).after second := by
  simp [after]

/-- Walks along a text that starts at byte `offset` until it stands at byte
`target`.  A target that is no start of a code point is never met, and the walk
ends behind the text. -/
def seek (target : Nat) : Nat → Position → Text → Position
  | _, here, [] => here
  | offset, here, c :: rest =>
      if offset = target then here else seek target (offset + c.utf8Size) (here.next c) rest

/-- The position of a byte offset in a text. -/
def ofOffset (source : Text) (offset : Nat) : Position := seek offset 0 first source

/-- The row and the column with a colon in between. -/
def display (position : Position) : String := s!"{position.row}:{position.column}"

end Position

end XmlOutline
