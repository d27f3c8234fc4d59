import XmlOutline.Node
import XmlOutline.Style.Basic

/-!
# Lines of an outline

A line has a depth and a list of pieces, each of them a text in a role, or a gap
between attributes.  Which lines a node has does not depend on how they are
indented or decorated; `Line.render` writes a line in a given style.

Tags are written with one space between attributes and with double quotes, text
in double quotes, and all else with its own markers.
-/

namespace XmlOutline

/-- A part of a line. -/
inductive Piece where
  /-- A text in a role. -/
  | token (role : Role) (text : Text)
  /-- The space between two attributes, which has no role. -/
  | gap
deriving DecidableEq

namespace Piece

/-- What is written for a piece. -/
def render (style : Style) : Piece → Text
  | token role text => style.paint role text
  | gap => [' ']

/-- A piece with a fixed text. -/
def sign (role : Role) (text : String) : Piece := token role text.toList

end Piece

/-- The pieces of a line, and how many levels it is indented. -/
structure Line where
  depth : Nat
  pieces : List Piece
deriving DecidableEq

namespace Line

/-- What is written for a line. -/
def render (indent : Text) (style : Style) (line : Line) : Text :=
  Text.times line.depth indent ++ (line.pieces.map (Piece.render style)).flatten

/-! ## The pieces of each kind of line -/

/-- A name in the roles for its qualifier, its local part and the colon. -/
def namePieces (name : Name) (qualifierRole localRole colonRole : Role) : List Piece :=
  match name.qualifier with
  | some qualifier =>
      [.token qualifierRole qualifier.text, .sign colonRole ":",
        .token localRole name.localPart.text]
  | none => [.token localRole name.localPart.text]

/-- The name of an element. -/
def elementName (name : Name) : List Piece :=
  namePieces name .elementNamespacePrefix .elementNodeName .elementSyntax

/-- An attribute with the gap before it. -/
def attributePieces (attr : Attribute) : List Piece :=
  .gap :: namePieces attr.name .attributeNamespacePrefix .attributeNodeName .attributeSyntax ++
    [.sign .attributeSyntax "=\"", .token .attributeValue attr.value.text,
      .sign .attributeSyntax "\""]

/-- A start tag, or the whole tag of an element without children. -/
def startTag (name : Name) (attributes : List Attribute) (hasChildren : Bool) : List Piece :=
  .sign .elementSyntax "<" :: elementName name ++ (attributes.map attributePieces).flatten ++
    [.sign .elementSyntax (if hasChildren then ">" else " />")]

/-- A closing tag. -/
def closeTag (name : Name) : List Piece :=
  .sign .elementSyntax "</" :: elementName name ++ [.sign .elementSyntax ">"]

/-- A run of text. -/
def text (content : Text) : List Piece :=
  [.sign .textSyntax "\"", .token .textData content, .sign .textSyntax "\""]

/-- A CDATA section. -/
def cdata (content : Text) : List Piece :=
  [.sign .cdataSyntax "<![CDATA[", .token .cdataData content, .sign .cdataSyntax "]]>"]

/-- A comment. -/
def comment (content : Text) : List Piece :=
  [.sign .commentSyntax "<!--", .token .commentData content, .sign .commentSyntax "-->"]

/-- A processing instruction.  Without content, or with empty content, nothing
stands between the target and the end. -/
def instruction (target : Text) (content : Option Text) : List Piece :=
  let data := content.getD []
  let dataPieces :=
    if data.isEmpty then []
    else [.sign .processingInstructionSyntax " ", .token .processingInstructionData data]
  .sign .processingInstructionSyntax "<?" :: .token .processingInstructionName target ::
    dataPieces ++ [.sign .processingInstructionSyntax "?>"]

end Line

end XmlOutline
