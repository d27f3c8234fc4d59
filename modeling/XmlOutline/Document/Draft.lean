import XmlOutline.Document.Basic

/-!
# Drafts

A draft is a document in the making: the nodes that are finished at the top
level, and the elements that are still open, one inside the other.  Whatever is
added goes into the innermost of these.
-/

namespace XmlOutline

/-- An element that is still open. -/
structure OpenElement where
  span : Span := {}
  name : Name
  attributes : Array Attribute := #[]
  children : Array Node := #[]

namespace OpenElement

/-- The element with what it has got so far. -/
def toNode (opened : OpenElement) : Node :=
  .element opened.span opened.name opened.attributes.toList opened.children.toList

end OpenElement

/-- A document in the making.  The innermost open element comes first. -/
structure Draft where
  children : Array Node := #[]
  opened : List OpenElement := []

namespace Draft

/-- Opens an element inside the innermost one. -/
def openElement (draft : Draft) (opened : OpenElement) : Draft :=
  { draft with opened := opened :: draft.opened }

/-- Adds a node to the innermost open element, or to the top level. -/
def add (draft : Draft) (node : Node) : Draft :=
  match draft.opened with
  | [] => { draft with children := draft.children.push node }
  | inner :: outer =>
      { draft with opened := { inner with children := inner.children.push node } :: outer }

/-- Adds an attribute to the innermost open element. -/
def addAttribute? (draft : Draft) (attr : Attribute) : Option Draft :=
  match draft.opened with
  | [] => none
  | inner :: outer =>
      some { draft with
        opened := { inner with attributes := inner.attributes.push attr } :: outer }

/-- Closes the innermost open element and adds it where it belongs. -/
def close? (draft : Draft) : Option Draft :=
  match draft.opened with
  | [] => none
  | inner :: outer => some ({ draft with opened := outer }.add inner.toNode)

/-- The nodes that are finished at the top level, as a document. -/
def toDocument (draft : Draft) (source : Text) : Document := ⟨draft.children.toList, source⟩

end Draft

end XmlOutline
