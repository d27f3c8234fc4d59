import XmlOutline.Proofs.Derivation.Lawful
import XmlOutline.Proofs.Pruning.Documents
import XmlOutline.Proofs.RoundTrip.Siblings

/-!
# Texts that cannot be joined

A text in a tree is a whole run of character data: there is none beside it that it could be
joined with (`Node.Separated`), and there is nothing in it that would have ended the run.
Whatever comes between two runs leaves a node between them, so leaving texts out does not
bring two others together (`Node.Separated.filter`).  Which texts are left out is told from
their content alone, and so no blank one is there if blank text is not kept
(`ElementTokens.kept`).

Main statement: `Document.maximalTexts_of_parse`.
-/

namespace XmlOutline

/-- The content of a text that is kept in a tree. -/
structure Text.IsKeptRun (options : ParseOptions) (content : Text) : Prop where
  ne_nil : content ≠ []
  no_markup : '<' ∉ content
  no_section_end : ¬ "]]>".toList <:+: content
  not_blank : options.keepWhitespace = false → content.isBlank = false

namespace Node

/-- If the node is an element, none of its texts can be joined with another, also without
the blank ones among them; and a text is what is kept of a run. -/
def HoldsMaximalTexts (options : ParseOptions) : Node → Prop
  | element _ _ _ children => Separated children ∧ Separated (pruneList children)
  | text _ content => content.text.IsKeptRun options
  | _ => True

/-- If the node is a text, it is kept. -/
def IsKept (options : ParseOptions) : Node → Prop
  | text _ content => options.Keeps content
  | _ => True

variable {node : Node} {nodes : List Node}

/-! ## Leaving texts out -/

theorem isText_of_isBlankText (h : node.isBlankText = true) : node.isText = true := by
  cases node with
  | text => rfl
  | _ => cases h

theorem isText_prune (node : Node) : node.prune.isText = node.isText := by
  cases node with
  | element =>
      rw [prune]
      rfl
  | _ => rfl

/-- If only texts are left out, what comes first is a text only if it was before. -/
theorem any_isText_head?_filter {keep : Node → Bool}
    (hkeep : ∀ node, node.isText = false → keep node = true)
    (h : nodes.head?.any isText = false) : (nodes.filter keep).head?.any isText = false := by
  cases nodes with
  | nil => rfl
  | cons node rest =>
      have hnode : node.isText = false := h
      rw [List.filter_cons_of_pos (hkeep node hnode)]
      exact hnode

theorem Separated.filter {keep : Node → Bool}
    (hkeep : ∀ node, node.isText = false → keep node = true) (h : Separated nodes) :
    Separated (nodes.filter keep) := by
  induction nodes with
  | nil => trivial
  | cons node rest ih =>
      obtain ⟨hnext, hrest⟩ := separated_cons_iff.mp h
      cases hnode : keep node with
      | true =>
          rw [List.filter_cons_of_pos hnode]
          exact separated_cons_iff.mpr
            ⟨fun htext => any_isText_head?_filter hkeep (hnext htext), ih hrest⟩
      | false =>
          rw [List.filter_cons_of_neg (by simp [hnode])]
          exact ih hrest

theorem separated_map_iff {change : Node → Node}
    (hchange : ∀ node, (change node).isText = node.isText) :
    Separated (nodes.map change) ↔ Separated nodes := by
  induction nodes with
  | nil => rfl
  | cons node rest ih =>
      have hhead : (rest.map change).head?.any isText = rest.head?.any isText := by
        cases rest with
        | nil => rfl
        | cons next rest => exact hchange next
      rw [List.map_cons, separated_cons_iff, separated_cons_iff, hchange, hhead, ih]

/-- Without the blank ones, the texts that are left still stand apart. -/
theorem Separated.pruneList (h : Separated nodes) : Separated (pruneList nodes) := by
  rw [pruneList_eq, separated_map_iff isText_prune]
  refine h.filter fun node hnode => ?_
  cases hblank : node.isBlankText with
  | false => rfl
  | true =>
      rw [isText_of_isBlankText hblank] at hnode
      cases hnode

theorem isKept_of_aside {options : ParseOptions} (h : node.isAside = true) :
    node.IsKept options := by
  cases node with
  | text => cases h
  | _ => trivial

theorem Lawful.isKeptRun {options : ParseOptions} {run content : Span}
    (h : (text run content).Lawful) (hkept : (text run content).IsKept options) :
    content.text.IsKeptRun options where
  ne_nil := h.2
  no_markup := h.1.no_markup
  no_section_end hwithin := by
    rw [← Text.occurs_eq_true_iff, h.1.no_section_end] at hwithin
    cases hwithin
  not_blank hdrops := by
    rcases hkept with hkeeps | hblank
    · rw [hkeeps] at hdrops
      cases hdrops
    · exact hblank

end Node

/-! ## Texts that are kept -/

variable {source : Text} {options : ParseOptions} {document : Document}

mutual

theorem ElementTokens.kept {tokens : List Token} {node : Node}
    (h : ElementTokens source options tokens node) : node.All (Node.IsKept options) :=
  match h with
  | .empty _ _ _ _ => ⟨trivial, trivial⟩
  | .closed _ _ _ _ _ _ hcontent => ⟨trivial, hcontent.kept⟩

theorem ContentTokens.kept {tokens : List Token} {nodes : List Node}
    (h : ContentTokens source options tokens nodes) :
    Node.AllList (Node.IsKept options) nodes :=
  match h with
  | .nil => trivial
  | .element helement hrest => ⟨helement.kept, hrest.kept⟩
  | .text hkeeps hrest => ⟨hkeeps, hrest.kept⟩
  | .blank _ hrest => hrest.kept
  | .cdata _ _ hrest | .comment _ _ hrest | .instruction _ _ _ hrest => ⟨trivial, hrest.kept⟩

end

theorem DocumentTokens.kept {tokens : List Token} {nodes : List Node}
    (h : DocumentTokens source options tokens nodes) :
    Node.AllList (Node.IsKept options) nodes := by
  cases h with
  | intro hprolog hroot hepilog =>
      refine Node.allList_append.mpr ⟨Node.allList_append.mpr ⟨?_, hroot.kept, trivial⟩, ?_⟩
      · exact Node.allList_of_aside hprolog.aside fun _ => Node.isKept_of_aside
      · exact Node.allList_of_aside hepilog.aside fun _ => Node.isKept_of_aside

/-- At any depth, no two texts in a row are children of an element, not even where the blank
ones between markup are left out; no text is empty or holds what would end a run of text; and
if blank text is not kept, no text is blank.  Beside the root element there is no text. -/
theorem Document.maximalTexts_of_parse (h : Document.parse source options = .ok document) :
    (∀ node ∈ document.children, node.isText = false) ∧
      ∀ entry ∈ Node.preorderList 0 document.children, entry.2.HoldsMaximalTexts options := by
  obtain ⟨hseparated, before, later, span, name, attributes, children, hchildren, hbefore,
    hlater⟩ := separated_of_parse h
  constructor
  · have haside {node : Node} (hnode : node.isAside = true) : node.isText = false := by
      cases node with
      | text => cases hnode
      | _ => rfl
    intro node hnode
    rw [hchildren, List.mem_append, List.mem_cons] at hnode
    rcases hnode with hnode | rfl | hnode
    · exact haside (hbefore node hnode)
    · rfl
    · exact haside (hlater node hnode)
  · obtain ⟨tokens, _, _, hdocument⟩ := documentTokens_of_parse h
    rintro ⟨depth, node⟩ hentry
    have hapart := (Node.allList_iff _ 0).mp hseparated _ hentry
    have hlawful := (Node.allList_iff _ 0).mp (lawful_of_parse h) _ hentry
    have hkept := (Node.allList_iff _ 0).mp hdocument.kept _ hentry
    cases node with
    | element => exact ⟨hapart, hapart.pruneList⟩
    | text => exact hlawful.isKeptRun hkept
    | _ => trivial

/-- Blank runs on both sides of markup, and runs that are not blank, read with and without
the blank ones. -/
theorem Document.maximalTexts_of_parse_between_markup :
    ∃ kept left, Document.parse "<a> <b/>\n<!----> x <![CDATA[]]>\u00A0</a>".toList
        { keepWhitespace := true } = .ok kept ∧
      Document.parse "<a> <b/>\n<!----> x <![CDATA[]]>\u00A0</a>".toList = .ok left ∧
      ((∀ node ∈ kept.children, node.isText = false) ∧ ∀ entry ∈ Node.preorderList 0 kept.children,
        entry.2.HoldsMaximalTexts { keepWhitespace := true }) ∧
      (∀ node ∈ left.children, node.isText = false) ∧
        ∀ entry ∈ Node.preorderList 0 left.children, entry.2.HoldsMaximalTexts {} := by
  obtain ⟨kept, hkept⟩ : ∃ kept,
      Document.parse "<a> <b/>\n<!----> x <![CDATA[]]>\u00A0</a>".toList
        { keepWhitespace := true } = .ok kept := exists_eq_ok_of_isOk (by decide +kernel)
  obtain ⟨left, hleft⟩ : ∃ left,
      Document.parse "<a> <b/>\n<!----> x <![CDATA[]]>\u00A0</a>".toList = .ok left :=
    exists_eq_ok_of_isOk (by decide +kernel)
  exact ⟨kept, left, hkept, hleft, Document.maximalTexts_of_parse hkept,
    Document.maximalTexts_of_parse hleft⟩

end XmlOutline
