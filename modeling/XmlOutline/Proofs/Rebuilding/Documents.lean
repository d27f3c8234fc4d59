import XmlOutline.Proofs.RoundTrip.Requotes

/-!
# Documents made again by hand

The spans in a tree say where its parts were read, and the lines of a document must not
depend on that.  `Node.bare` forgets all of it: the spans of nodes and of attributes, and
the offsets of the texts.  A tree has the same lines as what is left of it
(`Layout.outlineList_bareList`), so two documents that differ in nothing else are written
alike, whatever sources they have.

One way to get such a document is to make it by hand, part by part, out of the texts of one
that was read (`Document.rebuild?`).  A name that is made by hand has no empty qualifier;
nor has one that was read, and so nothing is lost.

Main statement: `Document.toLines_rebuilt`.
-/

namespace XmlOutline

/-! ## Without offsets -/

/-- The text alone. -/
def Span.bare (span : Span) : Span := ⟨span.text, 0⟩

/-- The name without its offsets. -/
def Name.bare (name : Name) : Name := ⟨name.qualifier.map Span.bare, name.localPart.bare⟩

/-- The attribute without its span and without offsets. -/
def Attribute.bare (attr : Attribute) : Attribute where
  name := attr.name.bare
  value := attr.value.bare

namespace Node

mutual

/-- The tree without spans of nodes and without offsets. -/
def bare : Node → Node
  | element _ name attributes children =>
      element {} name.bare (attributes.map Attribute.bare) (bareList children)
  | text _ content => text {} content.bare
  | cdata _ content => cdata {} content.bare
  | comment content => comment content.bare
  | instruction _ target content => instruction {} target.bare (content.map Span.bare)
  | unsupported _ kind => unsupported {} kind

/-- The same for a list of siblings. -/
def bareList : List Node → List Node
  | [] => []
  | node :: rest => bare node :: bareList rest

end

end Node

/-! ## The lines do not depend on offsets -/

theorem Name.beq_bare (name : Name) : (name.bare == name) = true := by
  refine beq_eq_true_iff.mpr ⟨?_, rfl⟩
  show (name.qualifier.map Span.bare).map Span.text = name.qualifier.map Span.text
  rw [Option.map_map]
  rfl

theorem Attribute.texts_bare (attr : Attribute) : attr.bare.texts = attr.texts := by
  obtain ⟨hqualifier, hlocal⟩ := Name.beq_eq_true_iff.mp attr.name.beq_bare
  exact Prod.ext hqualifier (Prod.ext hlocal rfl)

theorem Line.startTag_bare (name : Name) (attributes : List Attribute) (hasChildren : Bool) :
    startTag name.bare (attributes.map Attribute.bare) hasChildren =
      startTag name attributes hasChildren := by
  refine Node.startTag_eq_of_texts name.beq_bare ?_ hasChildren
  rw [List.map_map]
  exact List.map_congr_left fun attr _ => attr.texts_bare

namespace Layout

mutual

theorem outline_bare (node : Node) (depth : Nat) : outline depth node.bare = outline depth node :=
  match node with
  | .element span name attributes [] => by
      rw [Node.bare, Node.bareList, outline, outline, Line.startTag_bare]
  | .element span name attributes (child :: children) => by
      rw [Node.bare, Node.bareList, outline, outline, Line.startTag_bare,
        Node.closeTag_eq_of_beq name.beq_bare, outline_bare child, outlineList_bareList children]
  | .instruction span target content => by
      rw [Node.bare, outline, outline, Option.map_map]
      rfl
  | .text _ _ | .cdata _ _ | .comment _ | .unsupported _ _ => rfl

theorem outlineList_bareList (nodes : List Node) (depth : Nat) :
    outlineList depth (Node.bareList nodes) = outlineList depth nodes :=
  match nodes with
  | [] => rfl
  | node :: rest => by
      rw [Node.bareList, outlineList, outlineList, outline_bare node, outlineList_bareList rest]

end

mutual

theorem firstUnsupported?_bare (node : Node) :
    firstUnsupported? node.bare =
      (firstUnsupported? node).map fun first => (({} : Span), first.2) :=
  match node with
  | .element _ _ _ children => firstUnsupportedList?_bareList children
  | .text _ _ | .cdata _ _ | .comment _ | .instruction _ _ _ | .unsupported _ _ => rfl

theorem firstUnsupportedList?_bareList (nodes : List Node) :
    firstUnsupportedList? (Node.bareList nodes) =
      (firstUnsupportedList? nodes).map fun first => (({} : Span), first.2) :=
  match nodes with
  | [] => rfl
  | node :: rest => by
      rw [Node.bareList, firstUnsupportedList?, firstUnsupportedList?,
        firstUnsupported?_bare node, firstUnsupportedList?_bareList rest]
      cases firstUnsupported? node <;> rfl

end

end Layout

/-- Up to the place that an error points at, a document is written as its tree is without
offsets. -/
theorem Document.toLines_bare (document : Document) (options : FormatOptions) (source : Text) :
    (Document.toLines ⟨Node.bareList document.children, source⟩ options).mapError Error.kind =
      (document.toLines options).mapError Error.kind := by
  unfold toLines
  rw [Layout.lines_eq, Layout.lines_eq, Layout.firstUnsupportedList?_bareList,
    Layout.outlineList_bareList]
  cases Layout.firstUnsupportedList? document.children with
  | none => rfl
  | some first => rfl

/-! ## Making a tree again -/

/-- The name made from its texts. -/
def Name.rebuilt (name : Name) : Name :=
  ofParts (name.qualifier.map Span.bare) name.localPart.bare

/-- The attribute made from its texts. -/
def Attribute.rebuilt (attr : Attribute) : Attribute where
  name := attr.name.rebuilt
  value := attr.value.bare

namespace Draft

mutual

/-- Makes the node again from its texts, at the place where the draft is.  An element is
opened, gets its attributes and then its children, and is closed. -/
def rebuild? (draft : Draft) : Node → Option Draft
  | .element _ name attributes children => do
      let opened := draft.openElement { name := name.rebuilt }
      let opened ← attributes.foldlM (fun opened attr => opened.addAttribute? attr.rebuilt) opened
      let opened ← rebuildList? opened children
      opened.close?
  | .text _ content => some (draft.add (.text {} content.bare))
  | .cdata _ content => some (draft.add (.cdata {} content.bare))
  | .comment content => some (draft.add (.comment content.bare))
  | .instruction _ target content =>
      some (draft.add (.instruction {} target.bare (content.map Span.bare)))
  | .unsupported _ kind => some (draft.add (.unsupported {} kind))

/-- The same for a list of siblings. -/
def rebuildList? (draft : Draft) : List Node → Option Draft
  | [] => some draft
  | node :: rest => do
      let draft ← rebuild? draft node
      rebuildList? draft rest

end

end Draft

/-- The document made again from the texts in it, without a source. -/
def Document.rebuild? (document : Document) : Option Document :=
  (Draft.toDocument · []) <$> Draft.rebuildList? {} document.children

/-- A qualifier that is not empty is kept. -/
theorem Name.rebuilt_eq {name : Name} (h : name.IsProper) : name.rebuilt = name.bare := by
  have hkept : (name.qualifier.map Span.bare).filter (fun span => !span.text.isEmpty) =
      name.qualifier.map Span.bare := by
    cases hqualifier : name.qualifier with
    | none => rfl
    | some qualifier =>
        have hstart := (h.qualifier qualifier hqualifier).1.2
        have hne : qualifier.text ≠ [] := fun hnil => by simp [hnil] at hstart
        simp [Span.bare, hne]
  unfold rebuilt ofParts
  rw [hkept]
  rfl

theorem Attribute.rebuilt_eq {attr : Attribute} (h : attr.Lawful) : attr.rebuilt = attr.bare := by
  unfold rebuilt
  rw [Name.rebuilt_eq h.name]
  rfl

namespace Draft

/-- Attributes go to the innermost open element, in their order. -/
theorem foldlM_addAttribute? (draft : Draft) (opened : OpenElement) (attributes : List Attribute) :
    attributes.foldlM (fun opened attr => opened.addAttribute? attr.rebuilt)
        (draft.openElement opened) =
      some (draft.openElement { opened with
        attributes := opened.attributes ++ (attributes.map Attribute.rebuilt).toArray }) := by
  induction attributes generalizing opened with
  | nil => simp
  | cons attr attributes ih =>
      have hadd : (draft.openElement opened).addAttribute? attr.rebuilt =
          some (draft.openElement { opened with
            attributes := opened.attributes.push attr.rebuilt }) := rfl
      rw [List.foldlM_cons, hadd]
      simp [ih]

mutual

/-- What is made again is the tree without offsets. -/
theorem rebuild?_eq (node : Node) (h : node.All Node.Lawful) (draft : Draft) :
    draft.rebuild? node = some (draft.add node.bare) :=
  match node with
  | .element span name attributes children => by
      obtain ⟨⟨hname, hattributes⟩, hchildren⟩ := h
      have hrebuilt : attributes.map Attribute.rebuilt = attributes.map Attribute.bare :=
        List.map_congr_left fun attr hattr => Attribute.rebuilt_eq (hattributes attr hattr)
      rw [rebuild?, foldlM_addAttribute?, Name.rebuilt_eq hname, hrebuilt]
      simp only [Option.bind_eq_bind, Option.bind_some]
      rw [rebuildList?_eq children hchildren, foldl_add_openElement]
      simp [close?, openElement, OpenElement.toNode, Node.bare]
  | .text _ _ | .cdata _ _ | .comment _ | .instruction _ _ _ | .unsupported _ _ => rfl

theorem rebuildList?_eq (nodes : List Node) (h : Node.AllList Node.Lawful nodes) (draft : Draft) :
    draft.rebuildList? nodes = some ((Node.bareList nodes).foldl add draft) :=
  match nodes with
  | [] => rfl
  | node :: rest => by
      rw [rebuildList?, rebuild?_eq node h.1, Option.bind_eq_bind, Option.bind_some,
        rebuildList?_eq rest h.2]
      rfl

end

end Draft

namespace Document

variable {source : Text} {options : ParseOptions} {document : Document}

theorem rebuild?_eq (h : Node.AllList Node.Lawful document.children) :
    document.rebuild? = some ⟨Node.bareList document.children, []⟩ := by
  have htop : (Node.bareList document.children).foldl Draft.add {} =
      ⟨(Node.bareList document.children).toArray, []⟩ := Draft.foldl_add_top []
  unfold rebuild?
  rw [Draft.rebuildList?_eq _ h, htop]
  rfl

/-- Of a document that was read, the one that is made again from its texts has the same
lines, or cannot be written either and for the same reason, whatever the format.  And any
two documents whose trees differ in spans of nodes and offsets only are written alike. -/
theorem toLines_rebuilt (hparse : Document.parse source options = .ok document) :
    (∃ rebuilt, document.rebuild? = some rebuilt ∧
      rebuilt.children = Node.bareList document.children ∧ rebuilt.source = [] ∧
      ∀ format, (rebuilt.toLines format).mapError Error.kind =
        (document.toLines format).mapError Error.kind) ∧
    ∀ first second : Document, Node.bareList first.children = Node.bareList second.children →
      ∀ format, (first.toLines format).mapError Error.kind =
        (second.toLines format).mapError Error.kind := by
  refine ⟨⟨_, rebuild?_eq (lawful_of_parse hparse), rfl, rfl, fun format => ?_⟩,
    fun first second hsame format => ?_⟩
  · exact toLines_bare document format []
  · rw [← toLines_bare first format [], hsame, toLines_bare second format []]

/-- An empty qualifier and empty data are dropped when they are read already. -/
theorem toLines_rebuilt_empty :
    ∃ document, Document.parse "<?p ?><:a b:c='&lt;'>t<![CDATA[]]></a>".toList = .ok document ∧
      ∃ rebuilt, document.rebuild? = some rebuilt ∧
        rebuilt.children = Node.bareList document.children ∧ rebuilt.source = [] ∧
        ∀ format, (rebuilt.toLines format).mapError Error.kind =
          (document.toLines format).mapError Error.kind := by
  obtain ⟨document, hparse⟩ : ∃ document,
      Document.parse "<?p ?><:a b:c='&lt;'>t<![CDATA[]]></a>".toList = .ok document :=
    exists_eq_ok_of_isOk (by decide +kernel)
  exact ⟨document, hparse, (toLines_rebuilt hparse).1⟩

end Document

end XmlOutline
