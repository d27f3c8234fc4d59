import XmlOutline.Proofs.Derivation.Lawful
import XmlOutline.Proofs.Tags.Faults

/-!
# Names against what they display

A name is displayed with a colon between its parts, and two names that differ can be
displayed alike: a colon in a part looks like the one between the parts.  Names that were
read have no such part (`Name.IsProper`).  So for names of documents it does not matter
whether the names are compared, or what they display, or a name with a text; and where a
closing tag is refused, the two names in the message can be told apart.

Main statement: `Document.compareNames_of_parse`.
-/

namespace XmlOutline

/-- The names in a node itself: that of an element, and those of its attributes. -/
def Node.names : Node → List Name
  | element _ name attributes _ => name :: attributes.map (·.name)
  | _ => []

/-- The names of all elements and attributes, in document order. -/
def Document.names (document : Document) : List Name :=
  (Node.preorderList 0 document.children).flatMap fun entry => entry.2.names

namespace Name

/-- Of names in general, different ones may be displayed alike. -/
example : (⟨some ⟨"a".toList, 0⟩, ⟨"b".toList, 2⟩⟩ : Name).display =
      (⟨none, ⟨"a:b".toList, 0⟩⟩ : Name).display ∧
    ((⟨some ⟨"a".toList, 0⟩, ⟨"b".toList, 2⟩⟩ : Name) == ⟨none, ⟨"a:b".toList, 0⟩⟩) = false := by
  decide

/-- Both parts of the name are there, the qualifier if it has one, and only the colon
between them is displayed. -/
structure HasPlainParts (name : Name) : Prop where
  localPart_ne_nil : name.localPart.text ≠ []
  colon_notMem_localPart : ':' ∉ name.localPart.text
  qualifier_ne_nil : ∀ qualifier ∈ name.qualifier, qualifier.text ≠ []
  colon_notMem_qualifier : ∀ qualifier ∈ name.qualifier, ':' ∉ qualifier.text

end Name

theorem Text.IsNamePart.ne_nil {text : Text} (h : text.IsNamePart) : text ≠ [] := by
  rintro rfl
  exact absurd h.1.2 (by decide)

theorem Name.IsProper.hasPlainParts {name : Name} (h : name.IsProper) : name.HasPlainParts where
  localPart_ne_nil := h.localPart.ne_nil
  colon_notMem_localPart := h.localPart.2
  qualifier_ne_nil qualifier hqualifier := (h.qualifier qualifier hqualifier).ne_nil
  colon_notMem_qualifier qualifier hqualifier := (h.qualifier qualifier hqualifier).2

/-! ## Where names come from -/

theorem Node.Lawful.isProper_of_mem_names {node : Node} (h : node.Lawful) :
    ∀ name ∈ node.names, name.IsProper := by
  cases node with
  | element =>
      obtain ⟨hname, hattributes⟩ := h
      refine List.forall_mem_cons.mpr ⟨hname, fun name hmem => ?_⟩
      obtain ⟨attr, hattr, rfl⟩ := List.mem_map.mp hmem
      exact (hattributes attr hattr).name
  | _ => simp [names]

/-- The names in a document are as reading leaves them. -/
theorem Document.isProper_of_mem_names {source : Text} {options : ParseOptions}
    {document : Document} (h : Document.parse source options = .ok document) :
    ∀ name ∈ document.names, name.IsProper := by
  intro name hname
  obtain ⟨entry, hentry, hname⟩ := List.mem_flatMap.mp hname
  have hlawful := (Node.allList_iff document.children 0).mp (lawful_of_parse h) entry hentry
  exact hlawful.isProper_of_mem_names name hname

/-- The names that do not match at a closing tag are displayed differently. -/
theorem Token.FirstMismatch.display_ne {tokens : List Token} {name closing : Name} {last : Span}
    (h : FirstMismatch tokens name last closing) (hspelled : ∀ token ∈ tokens, token.Spelled) :
    name.display ≠ closing.display := by
  obtain ⟨before, first, after, rfl, _, hopen, hdiffer⟩ := h
  have hname : name.IsProper := by
    cases hspelled _ (List.mem_append_left _ hopen.mem) with
    | tagStart hchars hread => exact Name.isProper_of_ofQualified? hchars hread
  have hclosing : closing.IsProper := by
    cases hspelled (.closeTag last closing) (by simp) with
    | closeTag hchars _ hread => exact Name.isProper_of_ofQualified? hchars hread
  intro hsame
  rw [(hname.beq_iff_display_eq hclosing).mpr hsame] at hdiffer
  cases hdiffer

/-- Names of documents have plain parts.  So two of them, of one document or of two, are equal
exactly if they are displayed alike, and exactly if one is equal to the text that the other
displays.  And where a closing tag does not match, the two names in the error differ. -/
theorem Document.compareNames_of_parse :
    (∀ source options document, Document.parse source options = .ok document →
      ∀ name ∈ document.names, name.HasPlainParts ∧
        ∀ source' options' document', Document.parse source' options' = .ok document' →
          ∀ name' ∈ document'.names,
            ((name == name') = true ↔ name.display = name'.display) ∧
            ((name == name') = true ↔ name.isWritten name'.display = true)) ∧
    ∀ source options error expected found, Document.parse source options = .error error →
      error.kind = .parse (.mismatchedTag expected found) → expected ≠ found := by
  constructor
  · intro source options document h name hname
    have hproper := isProper_of_mem_names h name hname
    refine ⟨hproper.hasPlainParts, fun source' options' document' h' name' hname' => ?_⟩
    have hsame := hproper.beq_iff_display_eq (isProper_of_mem_names h' name' hname')
    exact ⟨hsame, hsame.trans Name.isWritten_iff.symm⟩
  · intro source options error expected found h hkind
    obtain ⟨tokens, error?, htokens⟩ : ∃ tokens error?,
        Token.ofSource source = (tokens, error?) := ⟨_, _, rfl⟩
    obtain ⟨span, fault, rfl, hfault⟩ := faultAt_of_parse htokens h
    obtain rfl : fault = .mismatchedTag expected found := ErrorKind.parse.inj hkind
    cases hfault with
    | mismatched hfirst =>
        have hdiffer := hfirst.display_ne (Token.placed_of_ofSource htokens).2
        exact fun hsame => hdiffer (String.ofList_injective hsame)

/-- A qualified element with an attribute of the same name and one of its local part alone;
and in `<a:b></b>` the qualifier is missing in the closing tag. -/
theorem Document.compareNames_of_parse_qualified :
    (∃ document, Document.parse "<p:a p:a='1' a='2'/>".toList = .ok document ∧
      document.names.map Name.display = ["p:a".toList, "p:a".toList, "a".toList] ∧
      ∀ name ∈ document.names, name.HasPlainParts ∧ ∀ name' ∈ document.names,
        ((name == name') = true ↔ name.display = name'.display) ∧
        ((name == name') = true ↔ name.isWritten name'.display = true)) ∧
    ∃ error, Document.parse "<a:b></b>".toList = .error error ∧
      error.kind = .parse (.mismatchedTag "a:b" "b") ∧ "a:b" ≠ "b" := by
  constructor
  · obtain ⟨document, h⟩ : ∃ document,
        Document.parse "<p:a p:a='1' a='2'/>".toList = .ok document :=
      exists_eq_ok_of_isOk (by decide +kernel)
    have hnames : (Document.parse "<p:a p:a='1' a='2'/>".toList).toOption.map
        (·.names.map Name.display) = some ["p:a".toList, "p:a".toList, "a".toList] := by
      decide +kernel
    rw [h] at hnames
    refine ⟨document, h, Option.some.inj hnames, fun name hname => ?_⟩
    obtain ⟨hparts, hcompare⟩ := Document.compareNames_of_parse.1 _ _ document h name hname
    exact ⟨hparts, hcompare _ _ document h⟩
  · have hkind : (match Document.parse "<a:b></b>".toList with
        | .error error => error.kind == .parse (.mismatchedTag "a:b" "b")
        | .ok _ => false) = true := by
      decide +kernel
    cases h : Document.parse "<a:b></b>".toList with
    | ok =>
        rw [h] at hkind
        cases hkind
    | error error =>
        rw [h] at hkind
        have hkind := eq_of_beq hkind
        exact ⟨error, rfl, hkind, Document.compareNames_of_parse.2 _ _ error "a:b" "b" h hkind⟩

end XmlOutline
