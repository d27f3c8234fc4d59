import XmlOutline.Name

/-!
# Nodes

The tree of a document.  Texts, attribute values, comments and sections are kept
as they are written; nothing in them is expanded or normalized.

Two nodes are equal if they have the same shape, the same spans and the same
texts; names are compared by their texts alone.
-/

namespace XmlOutline

/-- Kinds of nodes that a tree can hold but that have no layout. -/
inductive UnsupportedKind where
  | documentType
  | fragment
deriving DecidableEq

namespace UnsupportedKind

/-- What messages call such a node. -/
def label : UnsupportedKind → String
  | documentType => "document type declaration"
  | fragment => "document fragment"

end UnsupportedKind

/-- A node of a document. -/
inductive Node where
  /-- An element; its span reaches from the start tag to the end of its last tag. -/
  | element (span : Span) (name : Name) (attributes : List Attribute) (children : List Node)
  /-- A run of text. -/
  | text (span content : Span)
  /-- A CDATA section. -/
  | cdata (span content : Span)
  /-- A comment, without its markers. -/
  | comment (content : Span)
  /-- A processing instruction. -/
  | instruction (span target : Span) (content : Option Span)
  /-- A part of a document that is kept as a whole. -/
  | unsupported (span : Span) (kind : UnsupportedKind)

namespace Node

/-- The piece of source that a node stands for; of a comment, what is between
its markers. -/
def span : Node → Span
  | element span _ _ _ => span
  | text span _ => span
  | cdata span _ => span
  | comment content => content
  | instruction span _ _ => span
  | unsupported span _ => span

/-- The nodes directly below a node. -/
def children : Node → List Node
  | element _ _ _ children => children
  | _ => []

/-- The name of an element. -/
def name? : Node → Option Name
  | element _ name _ _ => some name
  | _ => none

mutual

/-- Equality of nodes. -/
def beq : Node → Node → Bool
  | element span name attributes children, element span' name' attributes' children' =>
      span == span' && name == name' && attributes == attributes' && beqList children children'
  | text span content, text span' content' => span == span' && content == content'
  | cdata span content, cdata span' content' => span == span' && content == content'
  | comment content, comment content' => content == content'
  | instruction span target content, instruction span' target' content' =>
      span == span' && target == target' && content == content'
  | unsupported span kind, unsupported span' kind' => span == span' && kind == kind'
  | _, _ => false

/-- Equality of lists of nodes. -/
def beqList : List Node → List Node → Bool
  | [], [] => true
  | node :: rest, node' :: rest' => beq node node' && beqList rest rest'
  | _, _ => false

end

instance : BEq Node := ⟨beq⟩

mutual

/-- A node and all nodes below it, in document order, each with its depth. -/
def preorder (depth : Nat) : Node → List (Nat × Node)
  | element span name attributes children =>
      (depth, element span name attributes children) :: preorderList (depth + 1) children
  | node => [(depth, node)]

/-- The same for a list of siblings. -/
def preorderList (depth : Nat) : List Node → List (Nat × Node)
  | [] => []
  | node :: rest => preorder depth node ++ preorderList depth rest

end

end Node

end XmlOutline
