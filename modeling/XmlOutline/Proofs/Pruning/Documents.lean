import XmlOutline.Proofs.Derivation.Balance

/-!
# Blank text, left out while reading or afterwards

A run of text that is blank can be left out in two ways: the builder passes over it
while it reads, or it is kept and taken out of the finished tree (`Node.prune`).  Both
come to the same, and that is not only so for texts that are documents: a text that is
none fails with the same error.

## Strategy

`Builder.prune` prunes whatever a builder holds, finished or not.  A builder that leaves
blank text out is at every moment the pruned one of a builder that keeps it
(`Builder.Balanced.take_prune`, and `Builder.finish_prune` at the end of the tokens).  Neither
which token is refused, nor a name or a span, depends on the children that an element
has got so far.

There is one place where the two builders could part: text is refused where no element
is open, while blank text that is left out is never refused.  A balanced builder does not
come to it.

Main statement: `Document.parse_eq_map_prune`.
-/

namespace XmlOutline

/-! ## Trees without blank text -/

namespace Node

/-- The node is a run of text that is blank. -/
def isBlankText : Node → Bool
  | text _ content => Text.isBlank content.text
  | _ => false

mutual

/-- The node without the blank texts in the elements from it down. -/
def prune : Node → Node
  | element span name attributes children => element span name attributes (pruneList children)
  | node => node

/-- The children of an element without blank texts, at any depth. -/
def pruneList : List Node → List Node
  | [] => []
  | node :: rest => if node.isBlankText then pruneList rest else prune node :: pruneList rest

end

variable {node : Node} {nodes nodes' : List Node}

/-- The children that are no blank text stay, in their order, and are pruned themselves. -/
theorem pruneList_eq (nodes : List Node) :
    pruneList nodes = (nodes.filter fun node => !node.isBlankText).map prune := by
  induction nodes with
  | nil => rfl
  | cons node nodes ih =>
      rw [pruneList, ih]
      cases hblank : node.isBlankText with
      | true => simp [hblank]
      | false => simp [hblank]

theorem pruneList_append : pruneList (nodes ++ nodes') = pruneList nodes ++ pruneList nodes' := by
  simp [pruneList_eq]

end Node

/-- The document without the blank texts in its elements. -/
def Document.prune (document : Document) : Document :=
  { document with children := document.children.map Node.prune }

/-! ## Drafts -/

/-- The element without blank texts among its children. -/
def OpenElement.prune (opened : OpenElement) : OpenElement :=
  { opened with children := (Node.pruneList opened.children.toList).toArray }

namespace Draft

/-- The draft without the blank texts in its elements. -/
def prune (draft : Draft) : Draft :=
  ⟨draft.children.map Node.prune, draft.opened.map OpenElement.prune⟩

variable {draft : Draft} {node : Node}

/-- A node that is no blank text stays. -/
theorem prune_add (node : Node) (hnode : node.isBlankText = false) :
    (draft.add node).prune = draft.prune.add node.prune := by
  unfold add
  cases hopened : draft.opened with
  | nil => simp [prune, hopened]
  | cons inner outer => simp [prune, OpenElement.prune, hopened, Node.pruneList_append,
      Node.pruneList, hnode]

/-- Blank text inside an element does not. -/
theorem prune_add_blank (hnode : node.isBlankText = true) (hopened : draft.opened ≠ []) :
    (draft.add node).prune = draft.prune := by
  unfold add
  cases hinner : draft.opened with
  | nil => exact absurd hinner hopened
  | cons inner outer => simp [prune, OpenElement.prune, hinner, Node.pruneList_append,
      Node.pruneList, hnode]

theorem prune_addAttribute? (attr : Attribute) :
    draft.prune.addAttribute? attr = (draft.addAttribute? attr).map prune := by
  unfold addAttribute?
  cases hopened : draft.opened with
  | nil => simp [prune, hopened]
  | cons inner outer => simp [prune, OpenElement.prune, hopened]

end Draft

/-! ## Builders -/

namespace Builder

/-- The builder without the blank texts in the elements that it has read. -/
def prune (builder : Builder) : Builder :=
  { builder with draft := builder.draft.prune }

variable {builder : Builder} {token : Token} {node : Node}

theorem prune_start (source : Text) : prune { source } = { source } := by
  simp [prune, Draft.prune]

theorem prune_add (node : Node) (hnode : node.isBlankText = false) :
    (builder.add node).prune = builder.prune.add node.prune := by
  unfold prune add
  rw [Draft.prune_add node hnode]

theorem prune_add_blank (hnode : node.isBlankText = true) (hopened : builder.draft.opened ≠ []) :
    (builder.add node).prune = builder.prune := by
  unfold prune add
  rw [Draft.prune_add_blank hnode hopened]

theorem isEmpty_children_prune (builder : Builder) :
    builder.prune.draft.children.isEmpty = builder.draft.children.isEmpty := by
  simp [prune, Draft.prune, Array.isEmpty]

theorem isEmpty_opened_prune (builder : Builder) :
    builder.prune.draft.opened.isEmpty = builder.draft.opened.isEmpty := by
  simp [prune, Draft.prune]

theorem addInside_prune (node : Node) (hnode : node.isBlankText = false) :
    builder.prune.addInside token node.prune = prune <$> builder.addInside token node := by
  unfold addInside
  rw [isEmpty_opened_prune, ← prune_add node hnode]
  cases builder.draft.opened.isEmpty with
  | true => rfl
  | false => rfl

theorem openElement_prune (builder : Builder) (span : Span) (name : Name) :
    builder.prune.openElement span name = (builder.openElement span name).prune := rfl

theorem stageBehind_prune (draft : Draft) : stageBehind draft.prune = stageBehind draft := by
  simp [stageBehind, Draft.prune]

/-- Closing an element compares its name and puts spans together, and both are as they
were. -/
theorem closeElement_openElement_prune (source : Text) (draft : Draft) (opened : OpenElement)
    (stage : Stage) (last : Span) (name? : Option Name) :
    closeElement ⟨source, draft.prune.openElement opened.prune, stage⟩ last name? =
      prune <$> closeElement ⟨source, draft.openElement opened, stage⟩ last name? := by
  by_cases hname : ∀ name ∈ name?, (opened.name == name) = true
  · cases hhull : Span.hull? source opened.span last with
    | none =>
        cases name? with
        | none =>
            simp only [closeElement, hull, Draft.openElement, OpenElement.prune, hhull]
            rfl
        | some name =>
            have hsame : (opened.name == name) = true := hname name rfl
            simp only [closeElement, hull, Draft.openElement, OpenElement.prune, hhull, hsame]
            rfl
    | some whole =>
        have hclose : closeElement ⟨source, draft.openElement opened, stage⟩ last name? =
            .ok ⟨source, draft.add { opened with span := whole }.toNode, stageBehind draft⟩ :=
          closeElement_eq_ok_iff.mpr ⟨hname, whole, hhull, rfl⟩
        have hpruned : closeElement ⟨source, draft.prune.openElement opened.prune, stage⟩ last
            name? = .ok ⟨source, draft.prune.add { opened with span := whole }.toNode.prune,
              stageBehind draft.prune⟩ :=
          closeElement_eq_ok_iff.mpr ⟨hname, whole, hhull, rfl⟩
        rw [hpruned, hclose, stageBehind_prune, ← Draft.prune_add _ rfl]
        rfl
  · obtain ⟨name, rfl, hdiffers⟩ : ∃ name, name? = some name ∧ (opened.name == name) = false := by
      simpa using hname
    have hpruned : (opened.prune.name == name) = false := hdiffers
    rw [closeElement_of_ne hpruned, closeElement_of_ne hdiffers]
    rfl

theorem closeElement_prune (last : Span) (name? : Option Name) :
    builder.prune.closeElement last name? = prune <$> builder.closeElement last name? := by
  obtain ⟨source, ⟨children, opened⟩, stage⟩ := builder
  cases opened with
  | nil => rfl
  | cons inner outer =>
      exact closeElement_openElement_prune source ⟨children, outer⟩ inner stage last name?

/-! ## One token in each stage -/

theorem takeInProlog_prune :
    builder.prune.takeInProlog token = prune <$> builder.takeInProlog token := by
  cases token with
  | tagStart span name => exact congrArg Except.ok (openElement_prune builder span name)
  | declaration span =>
      simp only [takeInProlog, isEmpty_children_prune]
      cases builder.draft.children.isEmpty with
      | true => rfl
      | false => rfl
  | comment span content =>
      exact congrArg Except.ok (prune_add (.comment content) rfl).symm
  | instruction span target content =>
      exact congrArg Except.ok (prune_add (.instruction span target content) rfl).symm
  | doctype span =>
      exact congrArg Except.ok (prune_add (.unsupported span .documentType) rfl).symm
  | text run =>
      simp only [takeInProlog]
      cases Text.isBlank run.text with
      | true => rfl
      | false => rfl
  | _ => rfl

theorem takeInSubset_prune (opening : Span) :
    builder.prune.takeInSubset opening token = prune <$> builder.takeInSubset opening token := by
  cases token with
  | subsetClose span =>
      have hhull : builder.prune.hull opening span = builder.hull opening span := rfl
      simp only [takeInSubset, hhull]
      cases builder.hull opening span with
      | error => rfl
      | ok whole =>
          have hadd : (builder.add (.unsupported whole .documentType)).prune =
              builder.prune.add (.unsupported whole .documentType) := prune_add _ rfl
          exact congrArg (fun next : Builder => Except.ok { next with stage := .prolog }) hadd.symm
  | _ => rfl

theorem takeInTag_prune :
    builder.prune.takeInTag token = prune <$> builder.takeInTag token := by
  cases token with
  | tagAttribute attr =>
      have hadd : builder.prune.draft.addAttribute? attr =
          (builder.draft.addAttribute? attr).map Draft.prune := Draft.prune_addAttribute? attr
      simp only [takeInTag, hadd]
      cases builder.draft.addAttribute? attr with
      | none => rfl
      | some draft => rfl
  | emptyTagEnd span => exact closeElement_prune span none
  | _ => rfl

/-- Blank text is left out by the one and kept by the other; an element is open. -/
theorem takeInContent_prune (hopened : builder.draft.opened ≠ []) :
    builder.prune.takeInContent { keepWhitespace := false } token =
      prune <$> builder.takeInContent { keepWhitespace := true } token := by
  cases token with
  | tagStart span name => exact congrArg Except.ok (openElement_prune builder span name)
  | text run =>
      cases hblank : Text.isBlank run.text with
      | true =>
          have hkept : (builder.add (.text run run)).prune = builder.prune :=
            prune_add_blank hblank hopened
          simp only [takeInContent, addInside, hblank, List.isEmpty_iff, hopened]
          exact congrArg Except.ok hkept.symm
      | false =>
          simp only [takeInContent, hblank, Bool.and_false]
          exact addInside_prune (.text run run) hblank
  | cdata span content => exact addInside_prune (.cdata span content) rfl
  | comment span content => exact addInside_prune (.comment content) rfl
  | instruction span target content => exact addInside_prune (.instruction span target content) rfl
  | closeTag span name => exact closeElement_prune span (some name)
  | _ => rfl

theorem takeInEpilog_prune :
    builder.prune.takeInEpilog token = prune <$> builder.takeInEpilog token := by
  cases token with
  | comment span content =>
      exact congrArg Except.ok (prune_add (.comment content) rfl).symm
  | instruction span target content =>
      exact congrArg Except.ok (prune_add (.instruction span target content) rfl).symm
  | text run =>
      simp only [takeInEpilog]
      cases Text.isBlank run.text with
      | true => rfl
      | false => rfl
  | _ => rfl

/-- Whatever the token is, the one builder takes it like the other, or refuses it with the
same error. -/
theorem Balanced.take_prune (h : builder.Balanced) (token : Token) :
    builder.prune.take { keepWhitespace := false } token =
      prune <$> builder.take { keepWhitespace := true } token := by
  have hstage : builder.prune.stage = builder.stage := rfl
  unfold Builder.take
  rw [hstage]
  cases hstage : builder.stage with
  | prolog => exact takeInProlog_prune
  | subset opening => exact takeInSubset_prune opening
  | tag => exact takeInTag_prune
  | content => exact takeInContent_prune (h.mpr (Or.inr hstage))
  | epilog => exact takeInEpilog_prune

/-! ## All tokens -/

theorem Balanced.foldlM_take_prune (h : builder.Balanced) (tokens : List Token) :
    tokens.foldlM (Builder.take { keepWhitespace := false }) builder.prune =
      prune <$> tokens.foldlM (Builder.take { keepWhitespace := true }) builder := by
  induction tokens generalizing builder with
  | nil => rfl
  | cons token tokens ih =>
      rw [List.foldlM_cons, List.foldlM_cons, h.take_prune token]
      cases htake : builder.take { keepWhitespace := true } token with
      | error error => rfl
      | ok next => exact ih (h.take htake)

theorem missing?_prune (builder : Builder) : builder.prune.missing? = builder.missing? := by
  obtain ⟨source, ⟨children, opened⟩, stage⟩ := builder
  cases opened with
  | nil => rfl
  | cons inner outer => rfl

/-- What is missing where the tokens end does not depend on the children that there are. -/
theorem finish_prune (builder : Builder) (error? : Option SyntaxError) :
    builder.prune.finish error? = Document.prune <$> builder.finish error? := by
  unfold finish
  rw [missing?_prune]
  cases error? with
  | some error =>
      have hstage : builder.prune.stage = builder.stage := rfl
      rw [hstage]
      cases builder.stage <;> rfl
  | none =>
      cases builder.missing? with
      | some missing => rfl
      | none =>
          have hdocument : builder.prune.draft.toDocument builder.source =
              (builder.draft.toDocument builder.source).prune := by
            simp [Draft.toDocument, Document.prune, prune, Draft.prune]
          exact congrArg Except.ok hdocument

end Builder

namespace Document

/-- Leaving out blank text while reading is the same as pruning the document that was
read with it: the one succeeds if the other does, and with the pruned document, and
if they fail, they do with the same error. -/
theorem parse_eq_map_prune (source : Text) :
    Document.parse source { keepWhitespace := false } =
      prune <$> Document.parse source { keepWhitespace := true } := by
  cases htokens : Token.ofSource source with
  | mk tokens error? =>
      have htakes := (Builder.balanced_start source).foldlM_take_prune tokens
      rw [Builder.prune_start] at htakes
      cases hkept : tokens.foldlM (Builder.take { keepWhitespace := true }) { source } with
      | error error =>
          rw [hkept] at htakes
          rw [parse_of_not_taken htokens hkept, parse_of_not_taken htokens htakes]
          rfl
      | ok builder =>
          rw [hkept] at htakes
          rw [parse_of_takes htokens hkept, parse_of_takes htokens htakes]
          exact builder.finish_prune error?

/-- The text between the inner tags stays, being no blank text. -/
example : (Document.parse "<a> <b>x</b>\n</a>".toList).toOption.map
    (fun document => document.children.map fun node => node.children.length) = some [1] := by
  decide +kernel

end Document

end XmlOutline
