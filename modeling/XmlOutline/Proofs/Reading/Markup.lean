import XmlOutline.Proofs.Reading.Names
import XmlOutline.Token.Grammar

/-!
# What each construct is made of, exactly

A scanner of `Grammar` succeeds on exactly the texts that are spelled as its
construct is, and yields the token with its parts at their offsets.  The parts
that are made of free text have a predicate each: `Text.IsCommentContent`,
`Text.IsInstructionContent`, `Text.IsSectionContent`, `Text.IsCharacterData` and
`Text.IsAttributeValue`.

The constructs around document types and the declaration are kept as a whole, so
of these only the span of the token is described.
-/

namespace XmlOutline

open CharClass Scanner

namespace Text

/-- What may stand between the markers of a comment. -/
structure IsCommentContent (content : Text) : Prop where
  isXml : content.IsXml
  no_hyphens : occurs "--".toList content = false
  no_final_hyphen : content.getLast? ≠ some '-'

/-- What may stand in an instruction behind the target and its spaces. -/
structure IsInstructionContent (content : Text) : Prop where
  isXml : content.IsXml
  closedBy : ClosedBy "?>".toList content
  no_space : content.head?.any isSpace = false

/-- What may stand between the markers of a CDATA section. -/
structure IsSectionContent (content : Text) : Prop where
  isXml : content.IsXml
  closedBy : ClosedBy "]]>".toList content

/-- What may stand between two pieces of markup. -/
structure IsCharacterData (run : Text) : Prop where
  isXml : run.IsXml
  no_markup : '<' ∉ run
  no_section_end : occurs "]]>".toList run = false

/-- What may stand between two quotes of the given kind. -/
structure IsAttributeValue (quote : Char) (value : Text) : Prop where
  isXml : value.IsXml
  no_markup : '<' ∉ value
  no_quote : quote ∉ value

/-- Without hyphens in a row, the end marker of a comment begins nowhere inside. -/
theorem IsCommentContent.closedBy {content : Text} (h : content.IsCommentContent) :
    ClosedBy "-->".toList content := by
  obtain ⟨hxml, hpair, hlast⟩ := h
  clear hxml
  show Avoids ['-', '-', '>'].isPrefixOf content ['-', '-', '>']
  induction content with
  | nil => trivial
  | cons c rest ih =>
      have hrestPair : occurs "--".toList rest = false := by
        simp only [occurs, Bool.or_eq_false_iff] at hpair
        exact hpair.2
      have hrestLast : rest.getLast? ≠ some '-' := by
        cases rest with
        | nil => simp
        | cons d rest => simpa [List.getLast?_cons_cons] using hlast
      refine ⟨?_, ih hrestPair hrestLast⟩
      cases rest with
      | nil => simp [List.isPrefixOf_cons_cons]
      | cons d rest =>
          have hstart : ['-', '-'].isPrefixOf (c :: d :: rest) = false := by
            simp only [occurs, Bool.or_eq_false_iff] at hpair
            exact hpair.1
          simp only [List.isPrefixOf_cons_cons, List.isPrefixOf_nil_left, Bool.and_true,
            List.cons_append] at hstart ⊢
          rw [← Bool.and_assoc, hstart, Bool.false_and]

end Text

/-- No space is part of a name. -/
theorem CharClass.isNameChar_eq_false_of_isSpace {c : Char} (h : isSpace c = true) :
    isNameChar c = false := by
  simp only [isSpace, Bool.or_eq_true, beq_iff_eq] at h
  rcases h with ((rfl | rfl) | rfl) | rfl <;> decide

namespace Scanner

/-- On success the value has a property. -/
def Returns {α : Type} (scanner : Scanner α) (property : α → Prop) : Prop :=
  ∀ start value stop, scanner start = .ok (value, stop) → property value

theorem returns_bind {α β : Type} {scanner : Scanner α} {next : α → Scanner β}
    {property : β → Prop} (h : ∀ value, Returns (next value) property) :
    Returns (scanner >>= next) property := by
  intro start value stop hrun
  obtain ⟨first, middle, _, hnext⟩ := bind_eq_ok_iff.mp hrun
  exact h first middle value stop hnext

theorem returns_pure {α : Type} {value : α} {property : α → Prop} (h : property value) :
    Returns (pure value : Scanner α) property := by
  intro start result stop hrun
  rw [(pure_eq_ok_iff.mp hrun).1]
  exact h

end Scanner

namespace Grammar

variable {start stop : Cursor} {token : Token}

theorem lexeme_eq_ok_iff {body : Scanner (Span → Token)} :
    lexeme body start = .ok (token, stop) ↔
      ∃ make, body start = .ok (make, stop) ∧ token = make (start.spanTo stop) := by
  simp only [lexeme, bind_eq_ok_iff, get_eq_ok_iff, pure_eq_ok_iff]
  constructor
  · rintro ⟨_, _, ⟨rfl, rfl⟩, make, _, hbody, _, _, ⟨rfl, rfl⟩, htoken, rfl⟩
    exact ⟨make, hbody, htoken⟩
  · rintro ⟨make, hbody, htoken⟩
    exact ⟨start, start, ⟨rfl, rfl⟩, make, stop, hbody, stop, stop, ⟨rfl, rfl⟩, htoken, rfl⟩

/-! ## Constructs with free text -/

/-- Free text between two words, and then whatever comes next. -/
private theorem marked_bind_eq_ok_iff {β : Type} {opening closing : String}
    {next : Span → Scanner β} {value : β} (hclosing : startsForeign closing.toList = false)
    (hne : closing.toList ≠ []) :
    (do
      expectWord opening
      let run ← readUntilWord closing
      expectWord closing
      next run) start = .ok (value, stop) ↔
      ∃ (content : Text) (middle : Cursor),
        start.Reads (opening.toList ++ content ++ closing.toList) middle ∧ content.IsXml ∧
        Text.ClosedBy closing.toList content ∧
        next ⟨content, start.offset + Text.size opening.toList⟩ middle = .ok (value, stop) := by
  constructor
  · intro hrun
    obtain ⟨_, opened, hopen, hrun⟩ := bind_eq_ok_iff.mp hrun
    have hopen := expectWord_eq_ok_iff.mp hopen
    obtain ⟨content, middle, hread, hxml, hclosed, hnext⟩ :=
      (readUntilWord_bind_eq_ok_iff hclosing hne).mp hrun
    have hreads := hopen.trans hread
    rw [← List.append_assoc] at hreads
    rw [hopen.offset_eq] at hnext
    exact ⟨content, middle, hreads, hxml, hclosed, hnext⟩
  · intro h
    obtain ⟨content, middle, hreads, hxml, hclosed, hnext⟩ := h
    rw [List.append_assoc] at hreads
    obtain ⟨opened, hopen, hread⟩ := Cursor.reads_append_iff.mp hreads
    refine bind_eq_ok_iff.mpr ⟨(), opened, expectWord_eq_ok_iff.mpr hopen, ?_⟩
    rw [← hopen.offset_eq] at hnext
    exact (readUntilWord_bind_eq_ok_iff hclosing hne).mpr
      ⟨content, middle, hread, hxml, hclosed, hnext⟩

theorem comment_eq_ok_iff :
    comment start = .ok (token, stop) ↔
      ∃ content : Text, content.IsCommentContent ∧
        start.Reads ("<!--".toList ++ content ++ "-->".toList) stop ∧
        token = .comment ⟨"<!--".toList ++ content ++ "-->".toList, start.offset⟩
          ⟨content, start.offset + 4⟩ := by
  have hrequires {content : Span} {make : Span → Token} {middle : Cursor} :
      (do
        require (!Text.occurs "--".toList content.text) fun _ => .doubleHyphen
        require (content.text.getLast? != some '-') fun _ => .finalHyphen
        return (.comment · content) : Scanner (Span → Token)) middle = .ok (make, stop) ↔
        Text.occurs "--".toList content.text = false ∧ content.text.getLast? ≠ some '-' ∧
          make = (.comment · content) ∧ middle = stop := by
    simp only [bind_eq_ok_iff, require_eq_ok_iff, pure_eq_ok_iff, Bool.not_eq_true',
      bne_iff_ne]
    constructor
    · rintro ⟨_, _, ⟨hpair, rfl⟩, _, _, ⟨hlast, rfl⟩, hmake, hmiddle⟩
      exact ⟨hpair, hlast, hmake, hmiddle⟩
    · rintro ⟨hpair, hlast, hmake, hmiddle⟩
      exact ⟨(), middle, ⟨hpair, rfl⟩, (), middle, ⟨hlast, rfl⟩, hmake, hmiddle⟩
  rw [comment, lexeme_eq_ok_iff]
  constructor
  · intro h
    obtain ⟨make, hbody, rfl⟩ := h
    obtain ⟨content, middle, hreads, hxml, _, hbody⟩ :=
      (marked_bind_eq_ok_iff (by decide) (by decide)).mp hbody
    obtain ⟨hpair, hlast, rfl, rfl⟩ := hrequires.mp hbody
    exact ⟨content, ⟨hxml, hpair, hlast⟩, hreads, by rw [hreads.spanTo]; rfl⟩
  · intro h
    obtain ⟨content, hcontent, hreads, rfl⟩ := h
    refine ⟨(.comment · ⟨content, start.offset + 4⟩), ?_, by rw [hreads.spanTo]⟩
    exact (marked_bind_eq_ok_iff (by decide) (by decide)).mpr
      ⟨content, stop, hreads, hcontent.isXml, hcontent.closedBy,
        hrequires.mpr ⟨hcontent.no_hyphens, hcontent.no_final_hyphen, rfl, rfl⟩⟩

theorem cdata_eq_ok_iff :
    cdata start = .ok (token, stop) ↔
      ∃ content : Text, content.IsSectionContent ∧
        start.Reads ("<![CDATA[".toList ++ content ++ "]]>".toList) stop ∧
        token = .cdata ⟨"<![CDATA[".toList ++ content ++ "]]>".toList, start.offset⟩
          ⟨content, start.offset + 9⟩ := by
  rw [cdata, lexeme_eq_ok_iff]
  constructor
  · intro h
    obtain ⟨make, hbody, rfl⟩ := h
    obtain ⟨content, middle, hreads, hxml, hclosed, hbody⟩ :=
      (marked_bind_eq_ok_iff (by decide) (by decide)).mp hbody
    obtain ⟨rfl, rfl⟩ := pure_eq_ok_iff.mp hbody
    exact ⟨content, ⟨hxml, hclosed⟩, hreads, by rw [hreads.spanTo]; rfl⟩
  · intro h
    obtain ⟨content, hcontent, hreads, rfl⟩ := h
    refine ⟨(.cdata · ⟨content, start.offset + 9⟩), ?_, by rw [hreads.spanTo]⟩
    exact (marked_bind_eq_ok_iff (by decide) (by decide)).mpr
      ⟨content, stop, hreads, hcontent.isXml, hcontent.closedBy, pure_eq_ok_iff.mpr ⟨rfl, rfl⟩⟩

theorem text_eq_ok_iff :
    text start = .ok (token, stop) ↔
      ∃ run : Text, run.IsCharacterData ∧ start.Reads run stop ∧
        (stop.rest = [] ∨ stop.rest.head? = some '<') ∧ token = .text ⟨run, start.offset⟩ := by
  have hforeign : startsForeign stop.rest = false ∨ stop.rest.head? ≠ some '<' := by
    cases hstop : stop.rest with
    | nil => exact Or.inr (by simp)
    | cons c rest =>
        by_cases hc : c = '<'
        · subst hc
          exact Or.inl (by simp [startsForeign]; decide)
        · exact Or.inr (by simpa using hc)
  have hmarkup : stop.rest.head?.any (· == '<') = true ↔ stop.rest.head? = some '<' := by
    cases stop.rest <;> simp
  simp only [text, bind_eq_ok_iff, readUntilClass_eq_ok_iff, require_eq_ok_iff,
    pure_eq_ok_iff]
  constructor
  · rintro ⟨⟨run, _⟩, _, ⟨hreads, rfl, hxml, hclass, hbehind⟩, _, _, ⟨hsection, rfl⟩, rfl, rfl⟩
    refine ⟨run, ⟨hxml, ?_, by simpa using hsection⟩, hreads, ?_, rfl⟩
    · intro hmem
      simpa using hclass '<' hmem
    · exact hbehind.imp id (fun h => hmarkup.mp h.1)
  · rintro ⟨run, hrun, hreads, hbehind, rfl⟩
    refine ⟨⟨run, start.offset⟩, stop, ⟨hreads, rfl, hrun.isXml, ?_, ?_⟩, (), stop,
      ⟨by simpa using hrun.no_section_end, rfl⟩, rfl, rfl⟩
    · intro c hc
      have : c ≠ '<' := fun h => hrun.no_markup (h ▸ hc)
      simpa using this
    · refine hbehind.imp id fun h => ⟨hmarkup.mpr h, ?_⟩
      exact hforeign.resolve_right (fun hne => hne h)

/-- The target of an instruction ends where no character of a name follows. -/
theorem instruction_eq_ok_iff :
    instruction start = .ok (token, stop) ↔
      ∃ target gap content : Text, target.IsName ∧ gap.IsSpaces ∧
        content.IsInstructionContent ∧ (gap ++ content).head?.any isNameChar = false ∧
        start.Reads ("<?".toList ++ target ++ gap ++ content ++ "?>".toList) stop ∧
        token = .instruction
          ⟨"<?".toList ++ target ++ gap ++ content ++ "?>".toList, start.offset⟩
          ⟨target, start.offset + 2⟩
          (some ⟨content, start.offset + 2 + target.size + gap.size⟩
            |>.filter fun span => !span.text.isEmpty) := by
  -- what follows the target and the gap ends with a question mark, which is neither
  -- a character of a name nor a space
  have hend {kind : Char → Bool} (hkind : kind '?' = false) (text rest : Text) :
      (text ++ "?>".toList ++ rest).head?.any kind = text.head?.any kind := by
    cases text with
    | nil => simpa using hkind
    | cons c text => rfl
  rw [instruction, lexeme_eq_ok_iff]
  constructor
  · intro h
    obtain ⟨make, hbody, rfl⟩ := h
    obtain ⟨_, opened, hopen, hbody⟩ := bind_eq_ok_iff.mp hbody
    have hopen := expectWord_eq_ok_iff.mp hopen
    obtain ⟨⟨target, offset⟩, named, htarget, hbody⟩ := bind_eq_ok_iff.mp hbody
    obtain ⟨hreadTarget, hoffset, hname, hbehind⟩ := readName_eq_ok_iff.mp htarget
    obtain ⟨_, spaced, hskip, hbody⟩ := bind_eq_ok_iff.mp hbody
    obtain ⟨gap, hgap, hreadGap, hnoSpace⟩ := skipSpaces_eq_ok_iff.mp hskip
    obtain ⟨content, closed, hread, hxml, hclosed, hbody⟩ :=
      (readUntilWord_bind_eq_ok_iff (by decide) (by decide)).mp hbody
    obtain ⟨rfl, rfl⟩ := pure_eq_ok_iff.mp hbody
    dsimp only at hreadTarget hoffset hname
    have hreads := (hopen.trans hreadTarget).trans (hreadGap.trans hread)
    simp only [← List.append_assoc] at hreads
    refine ⟨target, gap, content, hname, hgap, ⟨hxml, hclosed, ?_⟩, ?_, hreads, ?_⟩
    · rw [← hend (by decide) content closed.rest, ← hread.rest_eq]
      exact hnoSpace
    · rw [← hend (by decide) (gap ++ content) closed.rest]
      rw [hreadGap.rest_eq, hread.rest_eq] at hbehind
      simpa using hbehind
    · rw [hreads.spanTo, hoffset, hreadGap.offset_eq, hreadTarget.offset_eq, hopen.offset_eq]
      rfl
  · intro h
    obtain ⟨target, gap, content, hname, hgap, hcontent, hbehind, hreads, rfl⟩ := h
    have hsplit := hreads
    rw [List.append_assoc, List.append_assoc] at hsplit
    obtain ⟨named, hhead, htail⟩ := Cursor.reads_append_iff.mp hsplit
    obtain ⟨opened, hopen, hreadTarget⟩ := Cursor.reads_append_iff.mp hhead
    obtain ⟨spaced, hreadGap, hread⟩ := Cursor.reads_append_iff.mp htail
    have hopened : opened.offset = start.offset + 2 := hopen.offset_eq
    have hspaced : spaced.offset = start.offset + 2 + target.size + gap.size := by
      rw [hreadGap.offset_eq, hreadTarget.offset_eq, hopened]
    have hnoName : named.rest.head?.any isNameChar = false := by
      rw [hreadGap.rest_eq, hread.rest_eq, ← List.append_assoc, ← List.append_assoc,
        hend (by decide)]
      exact hbehind
    have hnoSpace : spaced.rest.head?.any isSpace = false := by
      rw [hread.rest_eq, hend (by decide)]
      exact hcontent.no_space
    refine ⟨(.instruction · ⟨target, start.offset + 2⟩
      (some ⟨content, start.offset + 2 + target.size + gap.size⟩
        |>.filter fun span => !span.text.isEmpty)), ?_, by rw [hreads.spanTo]⟩
    refine bind_eq_ok_iff.mpr ⟨(), opened, expectWord_eq_ok_iff.mpr hopen, ?_⟩
    refine bind_eq_ok_iff.mpr ⟨⟨target, opened.offset⟩, named,
      readName_eq_ok_iff.mpr ⟨hreadTarget, rfl, hname, hnoName⟩, ?_⟩
    refine bind_eq_ok_iff.mpr ⟨(), spaced,
      skipSpaces_eq_ok_iff.mpr ⟨gap, hgap, hreadGap, hnoSpace⟩, ?_⟩
    refine (readUntilWord_bind_eq_ok_iff (by decide) (by decide)).mpr
      ⟨content, stop, hread, hcontent.isXml, hcontent.closedBy, ?_⟩
    exact pure_eq_ok_iff.mpr ⟨by rw [hopened, hspaced], rfl⟩

/-! ## Tags -/

theorem tagStart_eq_ok_iff :
    tagStart start = .ok (token, stop) ↔
      ∃ (raw : Text) (name : Name), raw.IsNameChars ∧
        Name.ofQualified? ⟨raw, start.offset + 1⟩ = some name ∧
        start.Reads ("<".toList ++ raw) stop ∧ stop.rest.head?.any isNameChar = false ∧
        token = .tagStart ⟨"<".toList ++ raw, start.offset⟩ name := by
  rw [tagStart, lexeme_eq_ok_iff]
  constructor
  · intro h
    obtain ⟨make, hbody, rfl⟩ := h
    obtain ⟨_, opened, hopen, hbody⟩ := bind_eq_ok_iff.mp hbody
    have hopen := expectWord_eq_ok_iff.mp hopen
    obtain ⟨name, named, hname, hbody⟩ := bind_eq_ok_iff.mp hbody
    obtain ⟨raw, hread, hchars, hbehind, hname⟩ := readQualifiedName_eq_ok_iff.mp hname
    obtain ⟨rfl, rfl⟩ := pure_eq_ok_iff.mp hbody
    have hreads := hopen.trans hread
    rw [hopen.offset_eq] at hname
    exact ⟨raw, name, hchars, hname, hreads, hbehind, by rw [hreads.spanTo]⟩
  · intro h
    obtain ⟨raw, name, hchars, hname, hreads, hbehind, rfl⟩ := h
    obtain ⟨opened, hopen, hread⟩ := Cursor.reads_append_iff.mp hreads
    have hopened : opened.offset = start.offset + 1 := hopen.offset_eq
    refine ⟨(.tagStart · name), ?_, by rw [hreads.spanTo]⟩
    refine bind_eq_ok_iff.mpr ⟨(), opened, expectWord_eq_ok_iff.mpr hopen, ?_⟩
    refine bind_eq_ok_iff.mpr ⟨name, stop, readQualifiedName_eq_ok_iff.mpr
      ⟨raw, hread, hchars, hbehind, by rw [hopened, hname]⟩, pure_eq_ok_iff.mpr ⟨rfl, rfl⟩⟩

theorem closeTag_eq_ok_iff :
    closeTag start = .ok (token, stop) ↔
      ∃ (raw gap : Text) (name : Name), raw.IsNameChars ∧ gap.IsSpaces ∧
        Name.ofQualified? ⟨raw, start.offset + 2⟩ = some name ∧
        start.Reads ("</".toList ++ raw ++ gap ++ [ '>' ]) stop ∧
        token = .closeTag ⟨"</".toList ++ raw ++ gap ++ [ '>' ], start.offset⟩ name := by
  rw [closeTag, lexeme_eq_ok_iff]
  constructor
  · intro h
    obtain ⟨make, hbody, rfl⟩ := h
    obtain ⟨_, opened, hopen, hbody⟩ := bind_eq_ok_iff.mp hbody
    have hopen := expectWord_eq_ok_iff.mp hopen
    obtain ⟨name, named, hname, hbody⟩ := bind_eq_ok_iff.mp hbody
    obtain ⟨raw, hread, hchars, _, hname⟩ := readQualifiedName_eq_ok_iff.mp hname
    obtain ⟨_, spaced, hskip, hbody⟩ := bind_eq_ok_iff.mp hbody
    obtain ⟨gap, hgap, hreadGap, _⟩ := skipSpaces_eq_ok_iff.mp hskip
    obtain ⟨_, closed, hclose, hbody⟩ := bind_eq_ok_iff.mp hbody
    have hclose := expectChar_eq_ok_iff.mp hclose
    obtain ⟨rfl, rfl⟩ := pure_eq_ok_iff.mp hbody
    have hreads := ((hopen.trans hread).trans hreadGap).trans hclose
    rw [hopen.offset_eq] at hname
    exact ⟨raw, gap, name, hchars, hgap, hname, hreads, by rw [hreads.spanTo]⟩
  · intro h
    obtain ⟨raw, gap, name, hchars, hgap, hname, hreads, rfl⟩ := h
    obtain ⟨spaced, hhead, hclose⟩ := Cursor.reads_append_iff.mp hreads
    obtain ⟨named, hhead, hreadGap⟩ := Cursor.reads_append_iff.mp hhead
    obtain ⟨opened, hopen, hread⟩ := Cursor.reads_append_iff.mp hhead
    have hopened : opened.offset = start.offset + 2 := hopen.offset_eq
    have hnoSpace : spaced.rest.head?.any isSpace = false := by
      rw [hclose.rest_eq]
      rfl
    have hnoName : named.rest.head?.any isNameChar = false := by
      rw [hreadGap.rest_eq, hclose.rest_eq]
      cases gap with
      | nil => rfl
      | cons c gap => exact isNameChar_eq_false_of_isSpace (hgap c List.mem_cons_self)
    refine ⟨(.closeTag · name), ?_, by rw [hreads.spanTo]⟩
    refine bind_eq_ok_iff.mpr ⟨(), opened, expectWord_eq_ok_iff.mpr hopen, ?_⟩
    refine bind_eq_ok_iff.mpr ⟨name, named, readQualifiedName_eq_ok_iff.mpr
      ⟨raw, hread, hchars, hnoName, by rw [hopened, hname]⟩, ?_⟩
    refine bind_eq_ok_iff.mpr ⟨(), spaced,
      skipSpaces_eq_ok_iff.mpr ⟨gap, hgap, hreadGap, hnoSpace⟩, ?_⟩
    exact bind_eq_ok_iff.mpr ⟨(), stop, expectChar_eq_ok_iff.mpr hclose,
      pure_eq_ok_iff.mpr ⟨rfl, rfl⟩⟩

/-- An attribute ends with the quote that its value starts with. -/
theorem tagAttribute_eq_ok_iff :
    tagAttribute start = .ok (token, stop) ↔
      ∃ (raw before after value : Text) (name : Name) (quote : Char), raw.IsNameChars ∧
        before.IsSpaces ∧ after.IsSpaces ∧ (quote = '"' ∨ quote = '\'') ∧
        value.IsAttributeValue quote ∧ Name.ofQualified? ⟨raw, start.offset⟩ = some name ∧
        start.Reads (raw ++ (before ++ [ '=' ] ++ after) ++ [quote] ++ value ++ [quote]) stop ∧
        token = .tagAttribute
          ⟨⟨raw ++ (before ++ [ '=' ] ++ after) ++ [quote] ++ value ++ [quote], start.offset⟩,
            name, ⟨value, start.offset + raw.size + Text.size (before ++ [ '=' ] ++ after) +
              Text.size [quote]⟩⟩ := by
  rw [tagAttribute, lexeme_eq_ok_iff]
  constructor
  · intro h
    obtain ⟨make, hbody, rfl⟩ := h
    obtain ⟨name, named, hname, hbody⟩ := bind_eq_ok_iff.mp hbody
    obtain ⟨raw, hread, hchars, _, hname⟩ := readQualifiedName_eq_ok_iff.mp hname
    obtain ⟨_, equated, hequals, hbody⟩ := bind_eq_ok_iff.mp hbody
    obtain ⟨before, after, hbefore, hafter, hreadEquals, _⟩ := expectEquals_eq_ok_iff.mp hequals
    obtain ⟨quote, quoted, hquote, hbody⟩ := bind_eq_ok_iff.mp hbody
    obtain ⟨hreadQuote, hquote⟩ := expectQuote_eq_ok_iff.mp hquote
    obtain ⟨⟨value, offset⟩, valued, hvalue, hbody⟩ := bind_eq_ok_iff.mp hbody
    obtain ⟨hreadValue, hoffset, hxml, hclass, _⟩ := readUntilClass_eq_ok_iff.mp hvalue
    obtain ⟨_, closed, hclose, hbody⟩ := bind_eq_ok_iff.mp hbody
    have hclose := expectChar_eq_ok_iff.mp hclose
    obtain ⟨rfl, rfl⟩ := pure_eq_ok_iff.mp hbody
    dsimp only at hreadValue hoffset hxml hclass
    have hreads := (((hread.trans hreadEquals).trans hreadQuote).trans hreadValue).trans hclose
    refine ⟨raw, before, after, value, name, quote, hchars, hbefore, hafter, hquote,
      ⟨hxml, ?_, ?_⟩, hname, hreads, ?_⟩
    · intro hmem
      simpa using hclass '<' hmem
    · intro hmem
      simpa using hclass quote hmem
    · rw [hreads.spanTo, hoffset, hreadQuote.offset_eq, hreadEquals.offset_eq, hread.offset_eq]
  · intro h
    obtain ⟨raw, before, after, value, name, quote, hchars, hbefore, hafter, hquote, hvalue,
      hname, hreads, rfl⟩ := h
    obtain ⟨valued, hhead, hclose⟩ := Cursor.reads_append_iff.mp hreads
    obtain ⟨quoted, hhead, hreadValue⟩ := Cursor.reads_append_iff.mp hhead
    obtain ⟨equated, hhead, hreadQuote⟩ := Cursor.reads_append_iff.mp hhead
    obtain ⟨named, hread, hreadEquals⟩ := Cursor.reads_append_iff.mp hhead
    have hoffset : quoted.offset = start.offset + raw.size +
        Text.size (before ++ [ '=' ] ++ after) + Text.size [quote] := by
      rw [hreadQuote.offset_eq, hreadEquals.offset_eq, hread.offset_eq]
    have hnoName : named.rest.head?.any isNameChar = false := by
      rw [hreadEquals.rest_eq]
      cases before with
      | nil => rfl
      | cons c gap => exact isNameChar_eq_false_of_isSpace (hbefore c List.mem_cons_self)
    have hnoSpace : equated.rest.head?.any isSpace = false := by
      rw [hreadQuote.rest_eq]
      rcases hquote with rfl | rfl <;> rfl
    have hnoForeign : startsForeign valued.rest = false := by
      rw [hclose.rest_eq]
      rcases hquote with rfl | rfl <;> rfl
    refine ⟨fun span => .tagAttribute ⟨span, name, ⟨value, quoted.offset⟩⟩, ?_,
      by rw [hreads.spanTo, hoffset]⟩
    refine bind_eq_ok_iff.mpr ⟨name, named,
      readQualifiedName_eq_ok_iff.mpr ⟨raw, hread, hchars, hnoName, hname⟩, ?_⟩
    refine bind_eq_ok_iff.mpr ⟨(), equated, expectEquals_eq_ok_iff.mpr
      ⟨before, after, hbefore, hafter, hreadEquals, hnoSpace⟩, ?_⟩
    refine bind_eq_ok_iff.mpr ⟨quote, quoted,
      expectQuote_eq_ok_iff.mpr ⟨hreadQuote, hquote⟩, ?_⟩
    refine bind_eq_ok_iff.mpr ⟨⟨value, quoted.offset⟩, valued, readUntilClass_eq_ok_iff.mpr
      ⟨hreadValue, rfl, hvalue.isXml, ?_, Or.inr ⟨?_, hnoForeign⟩⟩, ?_⟩
    · intro c hc
      have hquote : c ≠ quote := fun h => hvalue.no_quote (h ▸ hc)
      have hmarkup : c ≠ '<' := fun h => hvalue.no_markup (h ▸ hc)
      simp [hquote, hmarkup]
    · rw [hclose.rest_eq]
      simp
    · exact bind_eq_ok_iff.mpr ⟨(), stop, expectChar_eq_ok_iff.mpr hclose,
        pure_eq_ok_iff.mpr ⟨rfl, rfl⟩⟩

/-- An attribute starts neither with a space nor with the end of a tag. -/
theorem head_of_tagAttribute (h : tagAttribute start = .ok (token, stop)) :
    start.rest.head?.any isNameChar = true := by
  obtain ⟨raw, before, after, value, name, quote, hchars, _, _, _, _, hname, hreads, _⟩ :=
    tagAttribute_eq_ok_iff.mp h
  rw [hreads.rest_eq]
  cases raw with
  | nil => simp [Name.ofQualified?, Name.startsName] at hname
  | cons c raw => simpa using hchars c List.mem_cons_self

private theorem emptyTagEnd_eq_ok_iff :
    lexeme (do
      expectWord "/"
      expectChar '>'
      return Token.emptyTagEnd) start = .ok (token, stop) ↔
      start.Reads ['/', '>'] stop ∧ token = .emptyTagEnd ⟨['/', '>'], start.offset⟩ := by
  rw [lexeme_eq_ok_iff]
  constructor
  · intro h
    obtain ⟨make, hbody, rfl⟩ := h
    obtain ⟨_, _, hword, hbody⟩ := bind_eq_ok_iff.mp hbody
    obtain ⟨_, _, hclose, hbody⟩ := bind_eq_ok_iff.mp hbody
    obtain ⟨rfl, rfl⟩ := pure_eq_ok_iff.mp hbody
    have hend := (expectWord_eq_ok_iff.mp hword).trans (expectChar_eq_ok_iff.mp hclose)
    exact ⟨hend, by rw [hend.spanTo]; rfl⟩
  · intro h
    obtain ⟨hend, rfl⟩ := h
    have hsplit : start.Reads ([ '/' ] ++ [ '>' ]) stop := hend
    obtain ⟨slashed, hword, hclose⟩ := Cursor.reads_append_iff.mp hsplit
    refine ⟨Token.emptyTagEnd, ?_, by rw [hend.spanTo]⟩
    refine bind_eq_ok_iff.mpr ⟨(), slashed, expectWord_eq_ok_iff.mpr hword, ?_⟩
    exact bind_eq_ok_iff.mpr ⟨(), stop, expectChar_eq_ok_iff.mpr hclose,
      pure_eq_ok_iff.mpr ⟨rfl, rfl⟩⟩

private theorem tagEnd_eq_ok_iff :
    lexeme (do
      expectWord ">"
      return Token.tagEnd) start = .ok (token, stop) ↔
      start.Reads [ '>' ] stop ∧ token = .tagEnd ⟨[ '>' ], start.offset⟩ := by
  rw [lexeme_eq_ok_iff]
  constructor
  · intro h
    obtain ⟨make, hbody, rfl⟩ := h
    obtain ⟨_, _, hword, hbody⟩ := bind_eq_ok_iff.mp hbody
    obtain ⟨rfl, rfl⟩ := pure_eq_ok_iff.mp hbody
    have hend := expectWord_eq_ok_iff.mp hword
    exact ⟨hend, by rw [hend.spanTo]; rfl⟩
  · intro h
    obtain ⟨hend, rfl⟩ := h
    refine ⟨Token.tagEnd, ?_, by rw [hend.spanTo]⟩
    exact bind_eq_ok_iff.mpr ⟨(), stop, expectWord_eq_ok_iff.mpr hend,
      pure_eq_ok_iff.mpr ⟨rfl, rfl⟩⟩

/-- A gap that was read in full is empty exactly if no space comes first. -/
private theorem isSpace_head_iff {middle : Cursor} {gap : Text} (hgap : gap.IsSpaces)
    (hreads : start.Reads gap middle) (hbehind : middle.rest.head?.any isSpace = false) :
    start.rest.head?.any isSpace = true ↔ gap ≠ [] := by
  rw [hreads.rest_eq]
  cases gap with
  | nil => simpa using hbehind
  | cons c gap => simpa using hgap c List.mem_cons_self

/-- Where a character of a name comes next, no other character does. -/
private theorem startsWith_eq_false {word : String} {c : Char}
    (hword : word.toList.head? = some c) (hc : isNameChar c = false)
    (hhead : start.rest.head?.any isNameChar = true) : start.startsWith word = false := by
  obtain ⟨others, hword⟩ := List.head?_eq_some_iff.mp hword
  rw [Cursor.startsWith, hword]
  cases hrest : start.rest with
  | nil => rfl
  | cons d rest =>
      rw [hrest, List.head?_cons, Option.any_some] at hhead
      have hne : c ≠ d := by
        rintro rfl
        rw [hc] at hhead
        exact Bool.noConfusion hhead
      simp [List.isPrefixOf_cons_cons, hne]

/-- What can stand in a start tag between two places: its end, or an attribute if a
gap came before. -/
def ReadsItem (gap : Text) (middle : Cursor) (token : Token) (stop : Cursor) : Prop :=
  (middle.Reads ['/', '>'] stop ∧ token = .emptyTagEnd ⟨['/', '>'], middle.offset⟩) ∨
    (middle.Reads [ '>' ] stop ∧ token = .tagEnd ⟨[ '>' ], middle.offset⟩) ∨
    (gap ≠ [] ∧ tagAttribute middle = .ok (token, stop))

/-- No item of a start tag starts with a space. -/
private theorem ReadsItem.no_space {gap : Text} {middle : Cursor}
    (h : ReadsItem gap middle token stop) : middle.rest.head?.any isSpace = false := by
  rcases h with ⟨hend, _⟩ | ⟨hend, _⟩ | ⟨_, hattribute⟩
  · rw [hend.rest_eq]
    rfl
  · rw [hend.rest_eq]
    rfl
  · have hhead := head_of_tagAttribute hattribute
    cases hrest : middle.rest with
    | nil => rfl
    | cons c rest =>
        rw [hrest, List.head?_cons, Option.any_some] at hhead
        by_cases hspace : isSpace c = true
        · rw [isNameChar_eq_false_of_isSpace hspace] at hhead
          exact Bool.noConfusion hhead
        · simpa using hspace

/-- In a start tag there is a gap, and behind it the end of the tag; an attribute
needs a gap that is not empty. -/
theorem tagItem_eq_ok_iff :
    tagItem start = .ok (token, stop) ↔
      ∃ (gap : Text) (middle : Cursor), gap.IsSpaces ∧ start.Reads gap middle ∧
        ReadsItem gap middle token stop := by
  constructor
  · intro hrun
    obtain ⟨spaced, _, hspaced, hrun⟩ := bind_eq_ok_iff.mp hrun
    obtain ⟨rfl, rfl⟩ := lookingAtClass_eq_ok_iff.mp hspaced
    obtain ⟨_, middle, hskip, hrun⟩ := bind_eq_ok_iff.mp hrun
    obtain ⟨gap, hspaces, hreads, hbehind⟩ := skipSpaces_eq_ok_iff.mp hskip
    refine ⟨gap, middle, hspaces, hreads, ?_⟩
    obtain ⟨slash, _, hslash, hrun⟩ := bind_eq_ok_iff.mp hrun
    obtain ⟨_, rfl⟩ := lookingAt_eq_ok_iff.mp hslash
    cases slash with
    | true => exact Or.inl (emptyTagEnd_eq_ok_iff.mp hrun)
    | false =>
        obtain ⟨angle, _, hangle, hrun⟩ := bind_eq_ok_iff.mp hrun
        obtain ⟨_, rfl⟩ := lookingAt_eq_ok_iff.mp hangle
        cases angle with
        | true => exact Or.inr (Or.inl (tagEnd_eq_ok_iff.mp hrun))
        | false =>
            refine Or.inr (Or.inr ?_)
            cases hfirst : start.rest.head?.any isSpace with
            | true =>
                rw [hfirst] at hrun
                exact ⟨(isSpace_head_iff hspaces hreads hbehind).mp hfirst, hrun⟩
            | false =>
                -- without a space the scanner gives up before it reads an attribute
                rw [hfirst] at hrun
                obtain ⟨_, _, _, hrun⟩ := bind_eq_ok_iff.mp hrun
                obtain ⟨_, _, hrequire, _⟩ := bind_eq_ok_iff.mp hrun
                exact Bool.noConfusion (require_eq_ok_iff.mp hrequire).1
  · intro h
    obtain ⟨gap, middle, hspaces, hreads, hitem⟩ := h
    have hbehind := hitem.no_space
    refine bind_eq_ok_iff.mpr ⟨_, start, lookingAtClass_eq_ok_iff.mpr ⟨rfl, rfl⟩, ?_⟩
    refine bind_eq_ok_iff.mpr ⟨(), middle,
      skipSpaces_eq_ok_iff.mpr ⟨gap, hspaces, hreads, hbehind⟩, ?_⟩
    refine bind_eq_ok_iff.mpr ⟨_, middle, lookingAt_eq_ok_iff.mpr ⟨rfl, rfl⟩, ?_⟩
    rcases hitem with ⟨hend, rfl⟩ | ⟨hend, rfl⟩ | ⟨hne, hattribute⟩
    · have hslash : middle.startsWith "/" = true := by
        rw [Cursor.startsWith, hend.rest_eq]
        rfl
      rw [if_pos hslash]
      exact emptyTagEnd_eq_ok_iff.mpr ⟨hend, rfl⟩
    · have hslash : middle.startsWith "/" = false := by
        rw [Cursor.startsWith, hend.rest_eq]
        rfl
      have hangle : middle.startsWith ">" = true := by
        rw [Cursor.startsWith, hend.rest_eq]
        rfl
      rw [hslash]
      refine bind_eq_ok_iff.mpr ⟨_, middle, lookingAt_eq_ok_iff.mpr ⟨rfl, rfl⟩, ?_⟩
      rw [if_pos hangle]
      exact tagEnd_eq_ok_iff.mpr ⟨hend, rfl⟩
    · have hhead := head_of_tagAttribute hattribute
      have hslash : middle.startsWith "/" = false :=
        startsWith_eq_false (c := '/') rfl (by decide) hhead
      have hangle : middle.startsWith ">" = false :=
        startsWith_eq_false (c := '>') rfl (by decide) hhead
      rw [hslash]
      refine bind_eq_ok_iff.mpr ⟨_, middle, lookingAt_eq_ok_iff.mpr ⟨rfl, rfl⟩, ?_⟩
      rw [hangle, (isSpace_head_iff hspaces hreads hbehind).mpr hne]
      exact hattribute

end Grammar

end XmlOutline
