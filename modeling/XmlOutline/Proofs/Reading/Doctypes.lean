import XmlOutline.Proofs.Derivation.Rules
import XmlOutline.Proofs.Reading.Run

/-!
# What a document type declaration is made of

The tree keeps a document type declaration as one piece of text, but where it ends is told
from what is in it: a `>` or a `]` in a quoted value, in a comment or in an instruction ends
nothing, and a `>` in the subset ends no more than the declaration that it stands in.
`Text.IsDoctype` spells out such a declaration from `<!DOCTYPE` to its last character.

In the subset some constructs leave a token and others are passed over, and the spaces
between them are too.  Either way a step reads one piece of the subset
(`TokenStream.isSubsetPiece_of_skip`, `TokenStream.isSubsetPiece_of_step`), so what is read
from the opening of a subset to its close is a list of pieces (`Cursor.ReadsPieces`).

Main statement: `TokenStream.isDoctype_of_yields`.
-/

namespace XmlOutline

open CharClass Scanner

/-! ## The parts of a declaration -/

namespace Text

/-- At least one space. -/
structure IsSeparator (text : Text) : Prop where
  isSpaces : text.IsSpaces
  ne_nil : text ≠ []

/-- Any characters between quotes of the same kind. -/
inductive IsQuoted : Text → Prop where
  | intro {quote : Char} {content : Text} (hquote : quote = '"' ∨ quote = '\'')
      (hcontent : quote ∉ content) : IsQuoted ([quote] ++ content ++ [quote])

/-- `SYSTEM "…"` or `PUBLIC "…" "…"` -/
inductive IsExternalId : Text → Prop where
  | system {gap systemId : Text} (hgap : gap.IsSeparator) (hsystem : systemId.IsQuoted) :
      IsExternalId ("SYSTEM".toList ++ gap ++ systemId)
  | withPublic {gap publicId between systemId : Text} (hgap : gap.IsSeparator)
      (hpublic : publicId.IsQuoted) (hbetween : between.IsSeparator)
      (hsystem : systemId.IsQuoted) :
      IsExternalId ("PUBLIC".toList ++ gap ++ publicId ++ between ++ systemId)

/-- `<!DOCTYPE name`, possibly with an external identifier. -/
inductive IsDoctypeHead : Text → Prop where
  | intro {gap name between external last : Text} (hgap : gap.IsSeparator) (hname : name.IsName)
      (hbetween : between.IsSpaces) (hexternal : external = [] ∨ external.IsExternalId)
      (hlast : last.IsSpaces) :
      IsDoctypeHead ("<!DOCTYPE".toList ++ gap ++ name ++ between ++ external ++ last)

/-- What comes before the name of an entity, and whether it is a general one. -/
inductive IsEntityMark : Bool → Text → Prop where
  | general : IsEntityMark true []
  | parameter {gap : Text} (hgap : gap.IsSeparator) : IsEntityMark false ("%".toList ++ gap)

/-- What an entity stands for.  Only a general one can have a notation. -/
inductive IsEntityDefinition : Bool → Text → Prop where
  | value {isGeneral : Bool} {text : Text} (hvalue : text.IsQuoted) :
      IsEntityDefinition isGeneral text
  | external {isGeneral : Bool} {text : Text} (hexternal : text.IsExternalId) :
      IsEntityDefinition isGeneral text
  | unparsed {external gap between name : Text} (hexternal : external.IsExternalId)
      (hgap : gap.IsSpaces) (hbetween : between.IsSeparator) (hname : name.IsName) :
      IsEntityDefinition true (external ++ gap ++ "NDATA".toList ++ between ++ name)

/-- `<!ENTITY … >` -/
inductive IsEntity : Text → Prop where
  | intro {isGeneral : Bool} {gap mark name between definition last : Text}
      (hgap : gap.IsSeparator) (hmark : IsEntityMark isGeneral mark) (hname : name.IsName)
      (hbetween : between.IsSeparator) (hdefinition : IsEntityDefinition isGeneral definition)
      (hlast : last.IsSpaces) :
      IsEntity ("<!ENTITY".toList ++ gap ++ mark ++ name ++ between ++ definition ++ last ++
        [ '>' ])

/-- A declaration of another kind.  It ends with the first `>`, wherever that stands. -/
inductive IsPassedOver : Text → Prop where
  | intro {word body : Text}
      (hword : word ∈ ["<!ELEMENT".toList, "<!ATTLIST".toList, "<!NOTATION".toList])
      (hbody : '>' ∉ body) : IsPassedOver (word ++ body ++ [ '>' ])

/-- One of the things that a subset is made of. -/
inductive IsSubsetPiece : Text → Prop where
  | spaces {text : Text} (hspaces : text.IsSpaces) : IsSubsetPiece text
  | comment {content : Text} (hcontent : content.IsCommentContent) :
      IsSubsetPiece ("<!--".toList ++ content ++ "-->".toList)
  | instruction {target gap content : Text} (htarget : target.IsName) (hgap : gap.IsSpaces)
      (hcontent : content.IsInstructionContent) :
      IsSubsetPiece ("<?".toList ++ target ++ gap ++ content ++ "?>".toList)
  | entity {text : Text} (hentity : text.IsEntity) : IsSubsetPiece text
  | passedOver {text : Text} (hpassed : text.IsPassedOver) : IsSubsetPiece text

/-- A whole document type declaration, up to the `>` that ends it. -/
inductive IsDoctype : Text → Prop where
  | plain {head : Text} (hhead : head.IsDoctypeHead) : IsDoctype (head ++ [ '>' ])
  | subset {head last : Text} {pieces : List Text} (hhead : head.IsDoctypeHead)
      (hpieces : ∀ piece ∈ pieces, IsSubsetPiece piece) (hlast : last.IsSpaces) :
      IsDoctype (head ++ [ '[' ] ++ pieces.flatten ++ ([ ']' ] ++ last ++ [ '>' ]))

/-- A word without the character behind a run lies in the run. -/
theorem isPrefix_of_notMem {word run rest : Text} {c : Char} (hword : c ∉ word)
    (h : word <+: run ++ c :: rest) : word <+: run := by
  obtain ⟨behind, hbehind⟩ := h
  rcases List.append_eq_append_iff.mp hbehind with ⟨more, hrun, _⟩ | ⟨more, hmore, hrest⟩
  · exact ⟨more, hrun.symm⟩
  · cases more with
    | nil => exact ⟨[], by rw [hmore, List.append_nil, List.append_nil]⟩
    | cons d more =>
        obtain ⟨rfl, _⟩ := List.cons.inj hrest
        exact absurd (by simp [hmore]) hword

end Text

/-! ## Reading the parts -/

namespace Scanner

variable {start stop : Cursor} {value : Unit}

theorem expectSpaces_reads (h : expectSpaces start = .ok (value, stop)) :
    ∃ gap : Text, gap.IsSeparator ∧ start.Reads gap stop := by
  obtain ⟨found, _, hpeek, h⟩ := bind_eq_ok_iff.mp h
  obtain ⟨hhead, rfl⟩ := peek_eq_ok_iff.mp hpeek
  obtain ⟨_, _, hrequire, h⟩ := bind_eq_ok_iff.mp h
  obtain ⟨hspace, rfl⟩ := require_eq_ok_iff.mp hrequire
  obtain ⟨gap, hgap, hreads, hbehind⟩ := skipSpaces_eq_ok_iff.mp h
  refine ⟨gap, ⟨hgap, ?_⟩, hreads⟩
  rintro rfl
  rw [hreads.rest_eq] at hhead
  rw [List.nil_append] at hhead
  rw [hhead, Option.any_some, hspace] at hbehind
  cases hbehind

end Scanner

namespace Grammar

variable {start stop : Cursor} {value : Unit} {token : Token}

theorem skipQuoted_reads (h : skipQuoted start = .ok (value, stop)) :
    ∃ word : Text, word.IsQuoted ∧ start.Reads word stop := by
  obtain ⟨quote, _, hquote, h⟩ := bind_eq_ok_iff.mp h
  obtain ⟨hopen, hquote⟩ := expectQuote_eq_ok_iff.mp hquote
  obtain ⟨run, _, hrun, h⟩ := bind_eq_ok_iff.mp h
  obtain ⟨hcontent, _, hkeep, _⟩ := readWhile_eq_ok_iff.mp hrun
  have hclose := expectChar_eq_ok_iff.mp h
  refine ⟨_, .intro hquote fun hmem => ?_, (hopen.trans hcontent).trans hclose⟩
  simpa using hkeep quote hmem

/-- An external identifier is read if one comes next, and nothing otherwise. -/
theorem externalId_reads {found : Bool} (h : externalId start = .ok (found, stop)) :
    ∃ word : Text, start.Reads word stop ∧
      (found = true → word.IsExternalId) ∧ (found = false → word = []) := by
  obtain ⟨system, _, hsystem, h⟩ := bind_eq_ok_iff.mp h
  obtain ⟨_, rfl⟩ := lookingAt_eq_ok_iff.mp hsystem
  cases system with
  | true =>
      obtain ⟨_, _, hword, h⟩ := bind_eq_ok_iff.mp h
      obtain ⟨_, _, hspaces, h⟩ := bind_eq_ok_iff.mp h
      obtain ⟨_, _, hquoted, h⟩ := bind_eq_ok_iff.mp h
      obtain ⟨rfl, rfl⟩ := pure_eq_ok_iff.mp h
      obtain ⟨gap, hgap, hreadGap⟩ := expectSpaces_reads hspaces
      obtain ⟨systemId, hsystemId, hreadId⟩ := skipQuoted_reads hquoted
      exact ⟨_, ((expectWord_eq_ok_iff.mp hword).trans hreadGap).trans hreadId,
        fun _ => .system hgap hsystemId, fun h => nomatch h⟩
  | false =>
      obtain ⟨isPublic, _, hpublic, h⟩ := bind_eq_ok_iff.mp h
      obtain ⟨_, rfl⟩ := lookingAt_eq_ok_iff.mp hpublic
      cases isPublic with
      | true =>
          obtain ⟨_, _, hword, h⟩ := bind_eq_ok_iff.mp h
          obtain ⟨_, _, hspaces, h⟩ := bind_eq_ok_iff.mp h
          obtain ⟨_, _, hquoted, h⟩ := bind_eq_ok_iff.mp h
          obtain ⟨_, _, hspaces', h⟩ := bind_eq_ok_iff.mp h
          obtain ⟨_, _, hquoted', h⟩ := bind_eq_ok_iff.mp h
          obtain ⟨rfl, rfl⟩ := pure_eq_ok_iff.mp h
          obtain ⟨gap, hgap, hreadGap⟩ := expectSpaces_reads hspaces
          obtain ⟨publicId, hpublicId, hreadId⟩ := skipQuoted_reads hquoted
          obtain ⟨between, hbetween, hreadBetween⟩ := expectSpaces_reads hspaces'
          obtain ⟨systemId, hsystemId, hreadId'⟩ := skipQuoted_reads hquoted'
          have hreads := (((expectWord_eq_ok_iff.mp hword).trans hreadGap).trans hreadId).trans
            hreadBetween
          exact ⟨_, hreads.trans hreadId', fun _ => .withPublic hgap hpublicId hbetween hsystemId,
            fun h => nomatch h⟩
      | false =>
          obtain ⟨rfl, rfl⟩ := pure_eq_ok_iff.mp h
          exact ⟨[], .refl _, fun h => (nomatch h), fun _ => rfl⟩

/-- A declaration up to the character that ends it or opens its subset. -/
theorem doctype_reads (h : doctype start = .ok (token, stop)) :
    ∃ head : Text, head.IsDoctypeHead ∧
      ((start.Reads (head ++ [ '>' ]) stop ∧
          token = .doctype ⟨head ++ [ '>' ], start.offset⟩) ∨
        start.Reads (head ++ [ '[' ]) stop ∧
          token = .subsetOpen ⟨head ++ [ '[' ], start.offset⟩) := by
  rw [doctype, lexeme_eq_ok_iff] at h
  obtain ⟨make, h, rfl⟩ := h
  obtain ⟨_, _, hword, h⟩ := bind_eq_ok_iff.mp h
  obtain ⟨_, _, hspaces, h⟩ := bind_eq_ok_iff.mp h
  obtain ⟨run, _, hname, h⟩ := bind_eq_ok_iff.mp h
  obtain ⟨_, _, hbetween, h⟩ := bind_eq_ok_iff.mp h
  obtain ⟨isExternal, _, hexternal, h⟩ := bind_eq_ok_iff.mp h
  obtain ⟨_, _, hlast, h⟩ := bind_eq_ok_iff.mp h
  obtain ⟨found, _, hpeek, h⟩ := bind_eq_ok_iff.mp h
  obtain ⟨_, rfl⟩ := peek_eq_ok_iff.mp hpeek
  obtain ⟨_, _, hrequire, h⟩ := bind_eq_ok_iff.mp h
  obtain ⟨hfound, rfl⟩ := require_eq_ok_iff.mp hrequire
  obtain ⟨_, _, hend, h⟩ := bind_eq_ok_iff.mp h
  obtain ⟨rfl, rfl⟩ := pure_eq_ok_iff.mp h
  obtain ⟨gap, hgap, hreadGap⟩ := expectSpaces_reads hspaces
  obtain ⟨hreadName, _, hname, _⟩ := readName_eq_ok_iff.mp hname
  obtain ⟨between, hbetween, hreadBetween, _⟩ := skipSpaces_eq_ok_iff.mp hbetween
  obtain ⟨external, hreadExternal, hsome, hnone⟩ := externalId_reads hexternal
  obtain ⟨last, hlast, hreadLast, _⟩ := skipSpaces_eq_ok_iff.mp hlast
  have hexternal : external = [] ∨ external.IsExternalId := by
    cases isExternal with
    | true => exact Or.inr (hsome rfl)
    | false => exact Or.inl (hnone rfl)
  have hhead := (((((expectWord_eq_ok_iff.mp hword).trans hreadGap).trans hreadName).trans
    hreadBetween).trans hreadExternal).trans hreadLast
  have hreads := hhead.trans (expectChar_eq_ok_iff.mp hend)
  refine ⟨_, .intro hgap hname hbetween hexternal hlast, ?_⟩
  simp only [Bool.or_eq_true, beq_iff_eq] at hfound
  rcases hfound with rfl | rfl
  · exact Or.inr ⟨hreads, by rw [hreads.spanTo]; rfl⟩
  · exact Or.inl ⟨hreads, by rw [hreads.spanTo]; rfl⟩

theorem entityKind_reads {isGeneral : Bool} (h : entityKind start = .ok (isGeneral, stop)) :
    ∃ mark : Text, mark.IsEntityMark isGeneral ∧ start.Reads mark stop := by
  obtain ⟨isMarked, _, hmarked, h⟩ := bind_eq_ok_iff.mp h
  obtain ⟨_, rfl⟩ := lookingAt_eq_ok_iff.mp hmarked
  cases isMarked with
  | true =>
      obtain ⟨_, _, hword, h⟩ := bind_eq_ok_iff.mp h
      obtain ⟨_, _, hspaces, h⟩ := bind_eq_ok_iff.mp h
      obtain ⟨rfl, rfl⟩ := pure_eq_ok_iff.mp h
      obtain ⟨gap, hgap, hreadGap⟩ := expectSpaces_reads hspaces
      exact ⟨_, .parameter hgap, (expectWord_eq_ok_iff.mp hword).trans hreadGap⟩
  | false =>
      obtain ⟨rfl, rfl⟩ := pure_eq_ok_iff.mp h
      exact ⟨[], .general, .refl _⟩

/-- A notation may lack its name, but only where the text ends. -/
theorem notationPart_reads (h : notationPart start = .ok (value, stop)) :
    ∃ gap : Text, gap.IsSpaces ∧ (start.Reads gap stop ∨ stop.rest = [] ∨
      ∃ between name : Text, between.IsSeparator ∧ name.IsName ∧
        start.Reads (gap ++ "NDATA".toList ++ between ++ name) stop) := by
  obtain ⟨_, _, hskip, h⟩ := bind_eq_ok_iff.mp h
  obtain ⟨gap, hgap, hreadGap, _⟩ := skipSpaces_eq_ok_iff.mp hskip
  obtain ⟨isNotation, _, hnotation, h⟩ := bind_eq_ok_iff.mp h
  obtain ⟨_, rfl⟩ := lookingAt_eq_ok_iff.mp hnotation
  refine ⟨gap, hgap, ?_⟩
  cases isNotation with
  | false =>
      obtain ⟨_, rfl⟩ := pure_eq_ok_iff.mp h
      exact Or.inl hreadGap
  | true =>
      obtain ⟨_, _, hword, h⟩ := bind_eq_ok_iff.mp h
      obtain ⟨_, spaced, hspaces, h⟩ := bind_eq_ok_iff.mp h
      obtain ⟨_, _, hget, h⟩ := bind_eq_ok_iff.mp h
      obtain ⟨rfl, rfl⟩ := get_eq_ok_iff.mp hget
      refine Or.inr ?_
      cases hends : spaced.rest.isEmpty with
      | true =>
          rw [if_pos hends] at h
          obtain ⟨_, rfl⟩ := pure_eq_ok_iff.mp h
          exact Or.inl (List.isEmpty_iff.mp hends)
      | false =>
          rw [if_neg (by simp [hends])] at h
          obtain ⟨run, _, hname, h⟩ := bind_eq_ok_iff.mp h
          obtain ⟨_, rfl⟩ := pure_eq_ok_iff.mp h
          obtain ⟨between, hbetween, hreadBetween⟩ := expectSpaces_reads hspaces
          obtain ⟨hreadName, _, hname, _⟩ := readName_eq_ok_iff.mp hname
          have hreads := (hreadGap.trans (expectWord_eq_ok_iff.mp hword)).trans hreadBetween
          exact Or.inr ⟨between, run.text, hbetween, hname, hreads.trans hreadName⟩

/-- If the text goes on, there is a definition, with spaces behind it. -/
theorem entityDefinition_reads {isGeneral : Bool}
    (h : entityDefinition isGeneral start = .ok (value, stop)) (hrest : stop.rest ≠ []) :
    ∃ definition gap : Text, definition.IsEntityDefinition isGeneral ∧ gap.IsSpaces ∧
      start.Reads (definition ++ gap) stop := by
  obtain ⟨found, _, hpeek, h⟩ := bind_eq_ok_iff.mp h
  obtain ⟨_, rfl⟩ := peek_eq_ok_iff.mp hpeek
  split at h
  · obtain ⟨word, hword, hreads⟩ := skipQuoted_reads h
    exact ⟨word, [], .value hword, Text.isSpaces_nil, by simpa using hreads⟩
  · obtain ⟨_, _, hrequire, h⟩ := bind_eq_ok_iff.mp h
    obtain ⟨_, rfl⟩ := require_eq_ok_iff.mp hrequire
    obtain ⟨isExternal, _, hexternal, h⟩ := bind_eq_ok_iff.mp h
    obtain ⟨_, _, hrequire, h⟩ := bind_eq_ok_iff.mp h
    obtain ⟨rfl, rfl⟩ := require_eq_ok_iff.mp hrequire
    obtain ⟨external, hreads, hsome, _⟩ := externalId_reads hexternal
    have hexternal := hsome rfl
    cases isGeneral with
    | false =>
        obtain ⟨_, rfl⟩ := pure_eq_ok_iff.mp h
        exact ⟨external, [], .external hexternal, Text.isSpaces_nil, by simpa using hreads⟩
    | true =>
        obtain ⟨gap, hgap, hgapOnly | hends | ⟨between, name, hbetween, hname, hnotation⟩⟩ :=
          notationPart_reads h
        · exact ⟨external, gap, .external hexternal, hgap, hreads.trans hgapOnly⟩
        · exact absurd hends hrest
        · refine ⟨_, [], .unparsed hexternal hgap hbetween hname, Text.isSpaces_nil, ?_⟩
          simpa using hreads.trans hnotation

theorem entity_reads (h : entity start = .ok (token, stop)) :
    ∃ word : Text, word.IsEntity ∧ start.Reads word stop ∧
      token = .entity ⟨word, start.offset⟩ := by
  rw [entity, lexeme_eq_ok_iff] at h
  obtain ⟨make, h, rfl⟩ := h
  obtain ⟨_, _, hword, h⟩ := bind_eq_ok_iff.mp h
  obtain ⟨_, _, hspaces, h⟩ := bind_eq_ok_iff.mp h
  obtain ⟨isGeneral, _, hmark, h⟩ := bind_eq_ok_iff.mp h
  obtain ⟨run, _, hname, h⟩ := bind_eq_ok_iff.mp h
  obtain ⟨_, _, hspaces', h⟩ := bind_eq_ok_iff.mp h
  obtain ⟨_, _, hdefinition, h⟩ := bind_eq_ok_iff.mp h
  obtain ⟨_, _, hskip, h⟩ := bind_eq_ok_iff.mp h
  obtain ⟨_, _, hend, h⟩ := bind_eq_ok_iff.mp h
  obtain ⟨rfl, rfl⟩ := pure_eq_ok_iff.mp h
  obtain ⟨gap, hgap, hreadGap⟩ := expectSpaces_reads hspaces
  obtain ⟨mark, hmark, hreadMark⟩ := entityKind_reads hmark
  obtain ⟨hreadName, _, hname, _⟩ := readName_eq_ok_iff.mp hname
  obtain ⟨between, hbetween, hreadBetween⟩ := expectSpaces_reads hspaces'
  obtain ⟨last, hlast, hreadLast, _⟩ := skipSpaces_eq_ok_iff.mp hskip
  have hclose := expectChar_eq_ok_iff.mp hend
  -- the character that ends the declaration is still to come
  have hrest := hreadLast.trans hclose |>.rest_eq
  obtain ⟨definition, gap', hdefinition, hgap', hreadDefinition⟩ :=
    entityDefinition_reads hdefinition (by simp [hrest])
  have hhead := ((((expectWord_eq_ok_iff.mp hword).trans hreadGap).trans hreadMark).trans
    hreadName).trans hreadBetween
  have hreads := ((hhead.trans hreadDefinition).trans hreadLast).trans hclose
  have hlast : Text.IsSpaces (gap' ++ last) := List.forall_mem_append.mpr ⟨hgap', hlast⟩
  have hentity := Text.IsEntity.intro hgap hmark hname hbetween hdefinition hlast
  simp only [List.append_assoc] at hreads hentity
  exact ⟨_, hentity, hreads, by rw [hreads.spanTo]⟩

theorem subsetClose_reads (h : subsetClose start = .ok (token, stop)) :
    ∃ gap : Text, gap.IsSpaces ∧ start.Reads ([ ']' ] ++ gap ++ [ '>' ]) stop ∧
      token = .subsetClose ⟨[ ']' ] ++ gap ++ [ '>' ], start.offset⟩ := by
  rw [subsetClose, lexeme_eq_ok_iff] at h
  obtain ⟨make, h, rfl⟩ := h
  obtain ⟨_, _, hword, h⟩ := bind_eq_ok_iff.mp h
  obtain ⟨_, _, hskip, h⟩ := bind_eq_ok_iff.mp h
  obtain ⟨_, _, hend, h⟩ := bind_eq_ok_iff.mp h
  obtain ⟨rfl, rfl⟩ := pure_eq_ok_iff.mp h
  obtain ⟨gap, hgap, hreadGap, _⟩ := skipSpaces_eq_ok_iff.mp hskip
  have hreads := ((expectWord_eq_ok_iff.mp hword).trans hreadGap).trans
    (expectChar_eq_ok_iff.mp hend)
  exact ⟨gap, hgap, hreads, by rw [hreads.spanTo]; rfl⟩

theorem ignoredDeclaration_reads {word : Text} (h : ignoredDeclaration start = .ok (value, stop))
    (hword : word ∈ ["<!ELEMENT".toList, "<!ATTLIST".toList, "<!NOTATION".toList])
    (hstarts : word.isPrefixOf start.rest = true) :
    ∃ text : Text, text.IsPassedOver ∧ start.Reads text stop := by
  obtain ⟨run, _, hrun, h⟩ := bind_eq_ok_iff.mp h
  obtain ⟨hreadRun, _, hkeep, _⟩ := readWhile_eq_ok_iff.mp hrun
  have hclose := expectChar_eq_ok_iff.mp h
  have hend : '>' ∉ run.text := fun hmem => by simpa using hkeep '>' hmem
  have hnoEnd : '>' ∉ word := by
    simp only [List.mem_cons, List.not_mem_nil, or_false] at hword
    rcases hword with rfl | rfl | rfl <;> decide
  -- the word comes before the end, so it is in the run
  have hwithin : word <+: run.text ++ '>' :: stop.rest := by
    rw [List.isPrefixOf_iff_prefix, hreadRun.rest_eq, hclose.rest_eq] at hstarts
    exact hstarts
  obtain ⟨body, hbody⟩ := Text.isPrefix_of_notMem hnoEnd hwithin
  have hreads := hreadRun.trans hclose
  rw [← hbody] at hreads hend
  exact ⟨_, .intro hword fun hmem => hend (List.mem_append_right _ hmem), hreads⟩

end Grammar

/-! ## Steps -/

/-- A token of a document type declaration has the text of one. -/
def Token.Declares : Token → Prop
  | doctype span => ∃ head : Text, head.IsDoctypeHead ∧ span.text = head ++ [ '>' ]
  | subsetOpen span => ∃ head : Text, head.IsDoctypeHead ∧ span.text = head ++ [ '[' ]
  | entity span => span.text.IsEntity
  | subsetClose span => ∃ gap : Text, gap.IsSpaces ∧ span.text = [ ']' ] ++ gap ++ [ '>' ]
  | _ => True

/-- A token that can come outside such a declaration is none of its tokens. -/
theorem Token.declares_of_mayStandIn {token : Token}
    (h : token.mayStandIn .beforeRoot = true ∨ token.mayStandIn .content = true ∨
      token.mayStandIn .tag = true) : token.Declares := by
  cases token with
  | doctype | subsetOpen | entity | subsetClose => rcases h with h | h | h <;> cases h
  | _ => trivial

theorem Opening.Leaves.declares {opening : Opening} {start stop : Cursor} {token : Token}
    (h : opening.Leaves start token stop)
    (hrun : opening.scanner start = .ok (some token, stop)) : token.Declares := by
  cases opening with
  | doctype =>
      obtain ⟨_, hrun, heq⟩ := map_some_eq_ok_iff.mp hrun
      cases heq
      obtain ⟨head, hhead, ⟨_, rfl⟩ | ⟨_, rfl⟩⟩ := Grammar.doctype_reads hrun
      · exact ⟨head, hhead, rfl⟩
      · exact ⟨head, hhead, rfl⟩
  | entity =>
      obtain ⟨_, hrun, heq⟩ := map_some_eq_ok_iff.mp hrun
      cases heq
      obtain ⟨word, hword, _, rfl⟩ := Grammar.entity_reads hrun
      exact hword
  | subsetClose =>
      obtain ⟨_, hrun, heq⟩ := map_some_eq_ok_iff.mp hrun
      cases heq
      obtain ⟨gap, hgap, _, rfl⟩ := Grammar.subsetClose_reads hrun
      exact ⟨gap, hgap, rfl⟩
  | declaration =>
      obtain ⟨_, hrun, heq⟩ := map_some_eq_ok_iff.mp hrun
      cases heq
      obtain ⟨_, _, _, rfl⟩ := Grammar.declaration_eq_ok hrun
      trivial
  | spaces | ignoredDeclaration =>
      obtain ⟨_, _, _, hpure⟩ := bind_eq_ok_iff.mp hrun
      cases (pure_eq_ok_iff.mp hpure).1
  | comment | instruction | tagStart =>
      exact Token.declares_of_mayStandIn (Or.inl (h.mayStartIn_eq .beforeRoot).symm)
  | closeTag | cdata | text =>
      exact Token.declares_of_mayStandIn (Or.inr (Or.inl (h.mayStartIn_eq .content).symm))
  | tagItem => exact Token.declares_of_mayStandIn (Or.inr (Or.inr (h.mayStartIn_eq .tag).symm))

/-- A declaration is passed over where it begins with the word of its kind. -/
theorem Region.exists_word_of_ignoredDeclaration {cursor : Cursor}
    (h : openingInSubset? cursor = some .ignoredDeclaration) :
    ∃ word ∈ ["<!ELEMENT".toList, "<!ATTLIST".toList, "<!NOTATION".toList],
      word.isPrefixOf cursor.rest = true := by
  simp only [openingInSubset?, openingAfterRoot?, Cursor.startsWith] at h
  grind

namespace TokenStream

variable {stream next : TokenStream} {token : Token}

theorem declares_of_step (hrest : stream.cursor.rest ≠ [])
    (h : stream.step = .ok (some token, next)) : token.Declares := by
  obtain ⟨word, hreads, hne⟩ := reads_of_step hrest h
  obtain ⟨opening, _, hrun, _⟩ := step_eq_ok_iff.mp h
  exact (Opening.leaves_of_scanner hreads hne hrun).declares hrun

/-- What is passed over in a subset is one of its pieces. -/
theorem isSubsetPiece_of_skip (hregion : stream.region = .subset)
    (h : stream.step = .ok (none, next)) :
    ∃ piece : Text, piece.IsSubsetPiece ∧ stream.cursor.Reads piece next.cursor := by
  obtain ⟨opening, hopening, hrun, _⟩ := step_eq_ok_iff.mp h
  rcases Opening.skipped_of_scanner hrun with ⟨rfl, gap, hgap, hreads⟩ | ⟨rfl, _⟩
  · exact ⟨gap, .spaces hgap, hreads⟩
  · rw [hregion] at hopening
    obtain ⟨word, hword, hstarts⟩ := Region.exists_word_of_ignoredDeclaration hopening
    obtain ⟨_, _, hskip, hpure⟩ := bind_eq_ok_iff.mp hrun
    obtain ⟨_, rfl⟩ := pure_eq_ok_iff.mp hpure
    obtain ⟨text, htext, hreads⟩ := Grammar.ignoredDeclaration_reads hskip hword hstarts
    exact ⟨text, .passedOver htext, hreads⟩

/-- And so is what leaves a token that is ignored there. -/
theorem isSubsetPiece_of_step (hrest : stream.cursor.rest ≠ [])
    (h : stream.step = .ok (some token, next)) (hignored : token.isIgnoredInSubset = true) :
    token.span.text.IsSubsetPiece := by
  obtain ⟨hspelled, _⟩ := spelled_of_step hrest h
  have hdeclares := declares_of_step hrest h
  cases hspelled with
  | comment hcontent => exact .comment hcontent
  | instruction htarget hgap hcontent => exact .instruction htarget hgap hcontent
  | entity => exact .entity hdeclares
  | _ => cases hignored

end TokenStream

/-! ## From the opening of a subset to its close -/

/-- From one place to the other there are pieces of a subset. -/
def Cursor.ReadsPieces (start stop : Cursor) : Prop :=
  ∃ pieces : List Text, (∀ piece ∈ pieces, piece.IsSubsetPiece) ∧
    start.Reads pieces.flatten stop

namespace Cursor.ReadsPieces

variable {start middle stop : Cursor}

theorem refl (cursor : Cursor) : cursor.ReadsPieces cursor := ⟨[], by simp, .refl cursor⟩

theorem single {piece : Text} (hpiece : piece.IsSubsetPiece) (hreads : start.Reads piece stop) :
    start.ReadsPieces stop := ⟨[piece], by simpa using hpiece, by simpa using hreads⟩

theorem trans (hfirst : start.ReadsPieces middle) (hsecond : middle.ReadsPieces stop) :
    start.ReadsPieces stop := by
  obtain ⟨pieces, hpieces, hreads⟩ := hfirst
  obtain ⟨pieces', hpieces', hreads'⟩ := hsecond
  refine ⟨pieces ++ pieces', List.forall_mem_append.mpr ⟨hpieces, hpieces'⟩, ?_⟩
  rw [List.flatten_append]
  exact hreads.trans hreads'

end Cursor.ReadsPieces

namespace TokenStream

variable {start stop : TokenStream} {tokens : List Token}

/-- What is passed over does not lead out of the subset. -/
theorem Skips.readsPieces (h : Skips start stop) (hregion : start.region = .subset) :
    stop.region = .subset ∧ start.cursor.ReadsPieces stop.cursor := by
  induction h with
  | refl => exact ⟨hregion, .refl _⟩
  | @step start next stop _ hstep _ ih =>
      obtain ⟨piece, hpiece, hreads⟩ := isSubsetPiece_of_skip hregion hstep
      obtain ⟨_, _, _, hfollowing⟩ := step_eq_ok_iff.mp hstep
      rw [hregion] at hfollowing
      obtain ⟨hstop, hlater⟩ := ih (congrArg Prod.fst hfollowing).symm
      exact ⟨hstop, .trans (.single hpiece hreads) hlater⟩

/-- Nor do the tokens that are ignored there. -/
theorem Yields.readsPieces (h : Yields start tokens stop) (hregion : start.region = .subset)
    (hinner : ∀ token ∈ tokens, token.isIgnoredInSubset = true) :
    stop.region = .subset ∧ start.cursor.ReadsPieces stop.cursor := by
  induction h with
  | nil => exact ⟨hregion, .refl _⟩
  | @cons start found next stop token tokens hskips hrest hstep _ ih =>
      obtain ⟨hignored, hinner⟩ := List.forall_mem_cons.mp hinner
      obtain ⟨hfound, hbefore⟩ := hskips.readsPieces hregion
      obtain ⟨hreads, _⟩ := whole_of_step (by rw [hfound]; decide) hrest hstep
      have hpiece := isSubsetPiece_of_step hrest hstep hignored
      have hnext : next.region = .subset := by
        obtain ⟨_, _, _, hfollowing⟩ := step_eq_ok_iff.mp hstep
        rw [hfound] at hfollowing
        cases token with
        | entity | comment | instruction => exact (congrArg Prod.fst hfollowing).symm
        | _ => cases hignored
      obtain ⟨hstop, hlater⟩ := ih hnext hinner
      exact ⟨hstop, (hbefore.trans (.single hpiece hreads)).trans hlater⟩

/-- A declaration with a subset goes from where its first token starts to where its last one
ends, and between the two there are pieces of the subset. -/
theorem isDoctype_of_yields {inner : List Token} {first last : Span}
    (h : Yields start (.subsetOpen first :: (inner ++ [.subsetClose last])) stop)
    (hinner : ∀ token ∈ inner, token.isIgnoredInSubset = true) :
    ∃ (found : TokenStream) (word : Text), Skips start found ∧ word.IsDoctype ∧
      found.cursor.Reads word stop.cursor ∧ first.start = found.cursor.offset ∧
      last.stop = stop.cursor.offset := by
  cases h with
  | @cons _ found opened _ _ _ hskips hrest hstep hyields =>
      obtain ⟨_, hmay, _⟩ := spelled_of_step hrest hstep
      have hfound : found.region ≠ .tag := by
        intro hregion
        rw [hregion] at hmay
        cases hmay
      obtain ⟨hreads, hstart⟩ := whole_of_step hfound hrest hstep
      obtain ⟨head, hhead, hopen⟩ := declares_of_step hrest hstep
      obtain ⟨_, _, _, hopened⟩ := step_eq_ok_iff.mp hstep
      obtain ⟨middle, hinside, hclose⟩ := yields_append_iff.mp hyields
      obtain ⟨hmiddle, hpieces⟩ := hinside.readsPieces (congrArg Prod.fst hopened).symm hinner
      cases hclose with
      | cons hskips' hrest' hstep' hnil =>
          cases hnil
          obtain ⟨hregion, hpieces'⟩ := hskips'.readsPieces hmiddle
          obtain ⟨hreads', hstart'⟩ := whole_of_step (by rw [hregion]; decide) hrest' hstep'
          obtain ⟨gap, hgap, hend⟩ := declares_of_step hrest' hstep'
          obtain ⟨pieces, hall, hbetween⟩ := hpieces.trans hpieces'
          have hopen : (Token.subsetOpen first).span.text = head ++ [ '[' ] := hopen
          have hend : (Token.subsetClose last).span.text = [ ']' ] ++ gap ++ [ '>' ] := hend
          have hstop : last.stop = stop.cursor.offset := by
            rw [hreads'.offset_eq, ← hstart']
            rfl
          rw [hopen] at hreads
          rw [hend] at hreads'
          exact ⟨found, _, hskips, .subset hhead hall hgap, (hreads.trans hbetween).trans hreads',
            hstart, hstop⟩

end TokenStream

end XmlOutline
