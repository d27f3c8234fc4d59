import XmlOutline.Sgr
import XmlOutline.Style.Role
import XmlOutline.Text.Quoted

/-!
# Styles

A style gives every role a decoration, and a decoration turns the text of a
piece into what is written for it.  Removing the control sequences from
decorated output is meant to give back the plain output.
-/

namespace XmlOutline

/-- How the pieces of one role are written. -/
inductive Decoration where
  /-- As they are. -/
  | identity
  /-- Between a control sequence with these parameters and one that resets. -/
  | sgr (parameters : Text)
  /-- In any other way. -/
  | custom (render : Text → Text)

namespace Decoration

/-- What is written for a text. -/
def apply : Decoration → Text → Text
  | identity, text => text
  | sgr parameters, text => Sgr.wrap parameters text
  | custom render, text => render text

/-- Are texts written as they are, by the form of the decoration? -/
def isIdentity : Decoration → Bool
  | identity => true
  | _ => false

/-- A short description. -/
def describe : Decoration → String
  | identity => "Identity"
  | sgr parameters => "Sgr(" ++ Text.quote parameters ++ ")"
  | custom _ => "Custom(..)"

end Decoration

/-- A decoration for every role. -/
structure Style where
  decoration : Role → Decoration

namespace Style

/-- Every piece is written as it is. -/
def plain : Style := ⟨fun _ => .identity⟩

/-- Replaces the decoration of one role. -/
def update (style : Style) (role : Role) (decoration : Decoration) : Style :=
  ⟨fun other => if other = role then decoration else style.decoration other⟩

/-- The parameters of the decorated style.  Elements are blue, attributes yellow,
text has the default foreground, comments are grey, sections magenta and
processing instructions cyan. -/
def palette : List (Role × String) :=
  [(.elementSyntax, "34"), (.elementNamespacePrefix, "2;34"), (.elementNodeName, "1;34"),
    (.attributeSyntax, "2;33"), (.attributeNamespacePrefix, "3;33"),
    (.attributeNodeName, "33"), (.attributeValue, "1;33"),
    (.textSyntax, "2;39"), (.textData, "39"),
    (.commentSyntax, "2;90"), (.commentData, "3;90"),
    (.cdataSyntax, "2;35"), (.cdataData, "35"),
    (.processingInstructionSyntax, "2;36"), (.processingInstructionName, "1;36"),
    (.processingInstructionData, "36")]

/-- Every role has its colour of the palette. -/
def decorated : Style :=
  palette.foldl (fun style entry => style.update entry.1 (.sgr entry.2.toList)) plain

/-- Is every piece written as it is, by the form of the decorations? -/
def isPlain (style : Style) : Bool := Role.all.all fun role => (style.decoration role).isIdentity

/-- What is written for a piece of an outline.  An empty piece is never
decorated. -/
def paint (style : Style) (role : Role) (text : Text) : Text :=
  if text.isEmpty then [] else (style.decoration role).apply text

end Style

end XmlOutline
