import XmlOutline.Proofs.Derivation.Lawful
import XmlOutline.Proofs.Outline.Documents
import XmlOutline.Proofs.RoundTrip.Siblings

/-!
# Trees that differ in the quotes around text

Text is written between quotes, and when the output is read again the quotes and the
spaces around them belong to the text.  All else comes back as it was, but at other
offsets.  `Node.Requotes` is this relation.  Without any text it is equality up to
spans, and the two trees have the same lines (`Node.RequotesList.outline_eq`).

What can be written and read again at all is `Node.Writable`.
-/

namespace XmlOutline

open CharClass

/-- The second text is the first one in quotes, with spaces around. -/
def Text.Requotes (text quoted : Text) : Prop :=
  ∃ before after : Text, before.IsSpaces ∧ after.IsSpaces ∧
    quoted = before ++ ['"'] ++ text ++ ['"'] ++ after

namespace Text

/-- What holds no quote does not go across one. -/
theorem infix_of_infix_append_cons {mark first second : Text} {c : Char} (hc : c ∉ mark)
    (hne : mark ≠ []) (h : mark <:+: first ++ c :: second) :
    mark <:+: first ∨ mark <:+: second := by
  have hbegin {part : Text} (hpart : part <+: c :: second) (hpartNe : part ≠ []) : c ∈ part := by
    rcases List.prefix_cons_iff.mp hpart with hnil | ⟨rest, rfl, _⟩
    · exact absurd hnil hpartNe
    · exact List.mem_cons_self
  -- it lies before the quote, behind it, or across, and then it would hold the quote
  rcases List.infix_append_iff_ne_nil.mp h with hfirst | hsecond | hacross
  · exact Or.inl hfirst
  · rcases List.infix_cons_iff.mp hsecond with hbegins | hsecond
    · exact absurd (hbegin hbegins hne) hc
    · exact Or.inr hsecond
  · obtain ⟨start, stop, _, hstop, rfl, _, hbegins⟩ := hacross
    exact absurd (List.mem_append_right start (hbegin hbegins hstop)) hc

/-- Spaces are a run of text. -/
theorem IsSpaces.isCharacterData {gap : Text} (h : gap.IsSpaces) : gap.IsCharacterData := by
  refine ⟨fun c hc => isXmlChar_of_isSpace (h c hc), ?_, Bool.eq_false_iff.mpr ?_⟩
  · intro hmem
    exact absurd (h '<' hmem) (by decide)
  · intro hoccurs
    have hwithin := occurs_eq_true_iff.mp hoccurs
    exact absurd (h ']' (hwithin.subset (by decide))) (by decide)

/-- With a quote between them two runs of text are one. -/
theorem IsCharacterData.append_quote {first second : Text} (hfirst : first.IsCharacterData)
    (hsecond : second.IsCharacterData) : IsCharacterData (first ++ '"' :: second) := by
  refine ⟨?_, ?_, Bool.eq_false_iff.mpr ?_⟩
  · intro c hc
    rcases List.mem_append.mp hc with hc | hc
    · exact hfirst.isXml c hc
    rcases List.mem_cons.mp hc with rfl | hc
    · decide
    · exact hsecond.isXml c hc
  · simp [hfirst.no_markup, hsecond.no_markup]
  · intro hoccurs
    have hwithin := occurs_eq_true_iff.mp hoccurs
    rcases infix_of_infix_append_cons (by decide) (by decide) hwithin with hwithin | hwithin
    · exact Bool.eq_false_iff.mp hfirst.no_section_end (occurs_eq_true_iff.mpr hwithin)
    · exact Bool.eq_false_iff.mp hsecond.no_section_end (occurs_eq_true_iff.mpr hwithin)

variable {text quoted : Text}

/-- Quotes and spaces around a run of text leave it one. -/
theorem Requotes.isCharacterData (h : text.Requotes quoted) (htext : text.IsCharacterData) :
    quoted.IsCharacterData := by
  obtain ⟨before, after, hbefore, hafter, rfl⟩ := h
  have hwhole := hbefore.isCharacterData.append_quote
    (htext.append_quote hafter.isCharacterData)
  simpa using hwhole

theorem isBlankChar_of_isSpace {c : Char} (h : isSpace c = true) : isBlankChar c = true := by
  simp only [isSpace, Bool.or_eq_true, beq_iff_eq] at h
  rcases h with ((rfl | rfl) | rfl) | rfl <;> decide

/-- Text in quotes is not blank, whatever it was before. -/
theorem Requotes.isBlank_eq_false (h : text.Requotes quoted) : isBlank quoted = false := by
  obtain ⟨before, after, _, _, rfl⟩ := h
  refine Bool.eq_false_iff.mpr fun hblank => ?_
  have hquote := List.all_eq_true.mp hblank '"' (by simp)
  exact absurd hquote (by decide)

end Text

/-- What there is to an attribute but for where it stands. -/
def Attribute.texts (attr : Attribute) : Option Text × Text × Text :=
  (attr.name.qualifier.map Span.text, attr.name.localPart.text, attr.value.text)

namespace Node

mutual

/-- The second node is the first one with other spans, and with quotes around text. -/
inductive Requotes : Node → Node → Prop where
  | element {span span' : Span} {name name' : Name} {attributes attributes' : List Attribute}
      {children children' : List Node} (hname : (name == name') = true)
      (hattributes : attributes.map Attribute.texts = attributes'.map Attribute.texts)
      (hchildren : RequotesList children children') :
      Requotes (.element span name attributes children) (.element span' name' attributes' children')
  | text {span content span' content' : Span} (htext : content.text.Requotes content'.text) :
      Requotes (.text span content) (.text span' content')
  | cdata {span content span' content' : Span} (htext : content.text = content'.text) :
      Requotes (.cdata span content) (.cdata span' content')
  | comment {content content' : Span} (htext : content.text = content'.text) :
      Requotes (.comment content) (.comment content')
  | instruction {span target span' target' : Span} {content content' : Option Span}
      (htarget : target.text = target'.text)
      (hcontent : content.map Span.text = content'.map Span.text) :
      Requotes (.instruction span target content) (.instruction span' target' content')

/-- The same for siblings, one by one. -/
inductive RequotesList : List Node → List Node → Prop where
  | nil : RequotesList [] []
  | cons {node node' : Node} {nodes nodes' : List Node} (hnode : Requotes node node')
      (hnodes : RequotesList nodes nodes') : RequotesList (node :: nodes) (node' :: nodes')

end

theorem RequotesList.append {first first' second second' : List Node}
    (hfirst : RequotesList first first') (hsecond : RequotesList second second') :
    RequotesList (first ++ second) (first' ++ second') :=
  match hfirst with
  | .nil => hsecond
  | .cons hnode hnodes => .cons hnode (hnodes.append hsecond)

/-! ## Trees without text -/

theorem namePieces_eq_of_beq {name name' : Name} (h : (name == name') = true)
    (qualifierRole localRole colonRole : Role) :
    Line.namePieces name qualifierRole localRole colonRole =
      Line.namePieces name' qualifierRole localRole colonRole := by
  obtain ⟨hqualifier, hlocal⟩ := Name.beq_eq_true_iff.mp h
  unfold Line.namePieces
  cases hname : name.qualifier with
  | none =>
      cases hname' : name'.qualifier with
      | none => simp [hlocal]
      | some _ => simp [hname, hname'] at hqualifier
  | some qualifier =>
      cases hname' : name'.qualifier with
      | none => simp [hname, hname'] at hqualifier
      | some _ =>
          rw [hname, hname'] at hqualifier
          simp [hlocal, Option.some.inj hqualifier]

theorem attributePieces_eq_of_texts {attributes attributes' : List Attribute}
    (h : attributes.map Attribute.texts = attributes'.map Attribute.texts) :
    attributes.map Line.attributePieces = attributes'.map Line.attributePieces := by
  induction attributes generalizing attributes' with
  | nil =>
      rw [List.map_eq_nil_iff.mp h.symm]
  | cons attr attributes ih =>
      cases attributes' with
      | nil => cases h
      | cons attr' attributes' =>
          obtain ⟨htexts, hrest⟩ := List.cons.inj h
          obtain ⟨hqualifier, htexts⟩ := Prod.mk.inj htexts
          obtain ⟨hlocal, hvalue⟩ := Prod.mk.inj htexts
          have hname : (attr.name == attr'.name) = true :=
            Name.beq_eq_true_iff.mpr ⟨hqualifier, hlocal⟩
          rw [List.map_cons, List.map_cons, ih hrest, Line.attributePieces, Line.attributePieces,
            namePieces_eq_of_beq hname, hvalue]

theorem startTag_eq_of_texts {name name' : Name} {attributes attributes' : List Attribute}
    (hname : (name == name') = true)
    (hattributes : attributes.map Attribute.texts = attributes'.map Attribute.texts)
    (hasChildren : Bool) :
    Line.startTag name attributes hasChildren = Line.startTag name' attributes' hasChildren := by
  unfold Line.startTag Line.elementName
  rw [namePieces_eq_of_beq hname, attributePieces_eq_of_texts hattributes]

theorem closeTag_eq_of_beq {name name' : Name} (hname : (name == name') = true) :
    Line.closeTag name = Line.closeTag name' := by
  unfold Line.closeTag Line.elementName
  rw [namePieces_eq_of_beq hname]

mutual

theorem Requotes.outline_eq {node node' : Node} (h : Requotes node node')
    (htext : node.All fun other => other.isText = false) (depth : Nat) :
    Layout.outline depth node = Layout.outline depth node' ∧
      Layout.firstUnsupported? node' = none :=
  match h with
  | .element hname hattributes .nil => by
      rw [Layout.outline, Layout.outline, startTag_eq_of_texts hname hattributes]
      exact ⟨rfl, rfl⟩
  | .element hname hattributes (.cons hnode hnodes) => by
      obtain ⟨hchildren, hsupported⟩ :=
        RequotesList.outline_eq (.cons hnode hnodes) htext.2 (depth + 1)
      rw [Layout.outlineList, Layout.outlineList] at hchildren
      rw [Layout.outline, Layout.outline, hchildren, startTag_eq_of_texts hname hattributes,
        closeTag_eq_of_beq hname]
      exact ⟨rfl, hsupported⟩
  | .text _ => nomatch htext
  | .cdata hcontent => by
      rw [Layout.outline, Layout.outline, hcontent]
      exact ⟨rfl, rfl⟩
  | .comment hcontent => by
      rw [Layout.outline, Layout.outline, hcontent]
      exact ⟨rfl, rfl⟩
  | .instruction htarget hcontent => by
      rw [Layout.outline, Layout.outline, htarget, hcontent]
      exact ⟨rfl, rfl⟩

/-- Without any text the trees have the same lines. -/
theorem RequotesList.outline_eq {nodes nodes' : List Node} (h : RequotesList nodes nodes')
    (htext : AllList (fun other => other.isText = false) nodes) (depth : Nat) :
    Layout.outlineList depth nodes = Layout.outlineList depth nodes' ∧
      Layout.firstUnsupportedList? nodes' = none :=
  match h with
  | .nil => ⟨rfl, rfl⟩
  | .cons hnode hnodes => by
      obtain ⟨hfirst, hfirstSupported⟩ := hnode.outline_eq htext.1 depth
      obtain ⟨hrest, hrestSupported⟩ := hnodes.outline_eq htext.2 depth
      rw [Layout.outlineList, Layout.outlineList, hfirst, hrest, Layout.firstUnsupportedList?,
        hfirstSupported, hrestSupported]
      exact ⟨rfl, rfl⟩

end

/-! ## What can be written -/

/-- The node can be written so that it can be read again. -/
def Writable : Node → Prop
  | element _ name attributes children =>
      name.IsProper ∧ (∀ attr ∈ attributes, attr.name.IsProper ∧
        attr.value.text.IsAttributeValue '"') ∧ Separated children
  | text _ content => content.text.IsCharacterData
  | cdata _ content => content.text.IsSectionContent
  | comment content => content.text.IsCommentContent
  | instruction _ target content =>
      target.text.IsName ∧ target.text ≠ "xml".toList ∧
        ∀ data ∈ content, data.text.IsInstructionContent ∧ data.text ≠ []
  | unsupported _ _ => False

/-- A value that was read is written between double quotes, so it must hold none; and
an instruction for `xml` would be taken for a declaration. -/
theorem writable_of_lawful {nodes : List Node} (hlawful : AllList Lawful nodes)
    (hseparated : AllList SeparatesText nodes)
    (hsupported : Layout.firstUnsupportedList? nodes = none)
    (hquotes : ∀ depth span name attributes children,
      (depth, element span name attributes children) ∈ preorderList 0 nodes →
        ∀ attr ∈ attributes, '"' ∉ attr.value.text)
    (htargets : ∀ depth span target content,
      (depth, instruction span target content) ∈ preorderList 0 nodes →
        target.text ≠ "xml".toList) : AllList Writable nodes := by
  have hsupported := (Layout.firstUnsupportedList?_eq_none_iff 0).mp hsupported
  rw [allList_iff nodes 0] at hlawful hseparated ⊢
  intro entry hentry
  obtain ⟨depth, node⟩ := entry
  have hnode := hlawful _ hentry
  cases node with
  | element span name attributes children =>
      obtain ⟨hname, hattributes⟩ := hnode
      refine ⟨hname, fun attr hattr => ?_, hseparated _ hentry⟩
      obtain ⟨hproper, quote, hvalue⟩ := hattributes attr hattr
      exact ⟨hproper, hvalue.isXml, hvalue.no_markup,
        hquotes depth span name attributes children hentry attr hattr⟩
  | text span content => exact hnode.1
  | cdata span content => exact hnode
  | comment content => exact hnode
  | instruction span target content =>
      exact ⟨hnode.1, htargets depth span target content hentry, hnode.2⟩
  | unsupported span kind => exact hsupported depth span kind hentry

end Node

end XmlOutline
