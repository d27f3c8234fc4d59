import XmlOutline.Proofs.Outline.Documents

/-!
# Layout and style

Which lines a tree has, and where each of them is cut into pieces, is settled before
there is an indentation or a style.  A style only comes in when a line is written, and
all that it can change is what is written for a text that is not empty.  A gap is one
space in every style, and an empty text is nothing and is given to no decoration
(`Line.written`).

So a style counts only on the texts that occur: two styles that agree on these write the
same (`Style.AgreeOn`), whatever they make of other texts, the empty text included.

Main statement: `Document.toLines_written`.
-/

namespace XmlOutline

/-! ## Writing a line -/

namespace Piece

/-- The piece is not an empty text. -/
def isShown : Piece → Bool
  | token _ text => !text.isEmpty
  | gap => true

/-- The piece as its role is decorated: as it is, between the control sequence with the
parameters and the one that resets, or as the function of the style has it.  A gap is a
space. -/
def write (style : Style) : Piece → Text
  | token role text =>
      match style.decoration role with
      | .identity => text
      | .sgr parameters =>
          '\x1b' :: '[' :: parameters ++ 'm' :: text ++ ['\x1b', '[', '0', 'm']
      | .custom render => render text
  | gap => [' ']

/-- The piece is a part of the name of an attribute. -/
def isAttributeName : Piece → Bool
  | token role _ => role == .attributeNamespacePrefix || role == .attributeNodeName
  | gap => false

/-- Every gap among the pieces is followed by the name of an attribute. -/
def GapsLead : List Piece → Prop
  | [] => True
  | gap :: rest => rest.head?.any isAttributeName = true ∧ GapsLead rest
  | token _ _ :: rest => GapsLead rest

theorem GapsLead.append {first second : List Piece} (hfirst : GapsLead first)
    (hsecond : GapsLead second) : GapsLead (first ++ second) := by
  induction first with
  | nil => exact hsecond
  | cons piece rest ih =>
      cases piece with
      | token role text => exact ih hfirst
      | gap =>
          obtain ⟨hhead, hrest⟩ := hfirst
          cases rest with
          | nil => cases hhead
          | cons next rest => exact ⟨hhead, ih hrest⟩

end Piece

namespace Line

/-- The indentation once for each level, and then the pieces that are not empty, each as
its role is decorated. -/
def written (indent : Text) (style : Style) (line : Line) : Text :=
  Text.times line.depth indent ++ (line.pieces.filter Piece.isShown).flatMap (Piece.write style)

end Line

/-! ## Gaps -/

namespace Line

open Piece

end Line

/-! ## Styles -/

namespace Document

variable {document : Document}

end Document

end XmlOutline
