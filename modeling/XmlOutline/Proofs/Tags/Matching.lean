import XmlOutline.Proofs.Derivation.Lawful
import XmlOutline.Proofs.Derivation.Lockstep

/-!
# The names of start tags and closing tags

A closing tag repeats the name of the start tag that it belongs to, as that name is
written.  One difference is let through: a name may be written with an empty qualifier,
and `:a` is the same name as `a` (`Text.withoutColon`).

What is compared are not the written names but the names that they are read as.  These
lose their offsets and an empty qualifier and nothing else, so comparing them comes to
comparing what is written (`Name.ofQualified?_beq_iff`).

How a name is written in a tag is read off the text of the element, from its front and
from its end (`Text.IsTagged`).  Both names are longest runs of their characters, so a
text has only one of each (`Text.IsTagged.unique`).

Main statement: `Document.tagsMatch_of_parse`.
-/

namespace XmlOutline

open CharClass

/-! ## Written names -/

/-- The names read from two texts are equal if the texts are, a colon in front apart. -/
theorem Name.ofQualified?_beq_iff {raw raw' : Span} {name name' : Name}
    (hchars : raw.text.IsNameChars) (hchars' : raw'.text.IsNameChars)
    (h : ofQualified? raw = some name) (h' : ofQualified? raw' = some name') :
    (name == name') = true ↔ raw.text.withoutColon = raw'.text.withoutColon := by
  rw [(isProper_of_ofQualified? hchars h).beq_iff_display_eq (isProper_of_ofQualified? hchars' h'),
    display_of_ofQualified? hchars h, display_of_ofQualified? hchars' h']

namespace Text

/-- `</raw >` -/
def IsClosingTagOf (word raw : Text) : Prop :=
  ∃ gap : Text, raw.IsNameChars ∧ raw ≠ [] ∧ gap.IsSpaces ∧
    word = "</".toList ++ raw ++ gap ++ ">".toList

/-- `<opening … </closing >`, where the name in front is as long as it can be. -/
def IsTagged (text opening closing : Text) : Prop :=
  ∃ middle tag : Text, opening.IsNameChars ∧
    (middle ++ tag).head?.any isNameChar = false ∧ tag.IsClosingTagOf closing ∧
    text = "<".toList ++ opening ++ middle ++ tag

/-- A longest run of characters of a class is determined by the text. -/
theorem run_unique {kind : Char → Bool} {run run' rest rest' : Text}
    (hrun : ∀ c ∈ run, kind c = true) (hrun' : ∀ c ∈ run', kind c = true)
    (hrest : rest.head?.any kind = false) (hrest' : rest'.head?.any kind = false)
    (h : run ++ rest = run' ++ rest') : run = run' ∧ rest = rest' := by
  have hbreak {run rest : Text} (hrun : ∀ c ∈ run, kind c = true)
      (hrest : rest.head?.any kind = false) : (run ++ rest).takeWhile kind = run := by
    rw [List.takeWhile_append_of_pos hrun]
    cases rest with
    | nil => simp
    | cons c rest =>
        have hc : kind c = false := by simpa using hrest
        simp [hc]
  have hsame : run = run' := by
    rw [← hbreak hrun hrest, h, hbreak hrun' hrest']
  subst hsame
  exact ⟨rfl, List.append_cancel_left h⟩

/-- A text that ends with a closing tag, read from its end. -/
private theorem reverse_closingTag (front raw gap : Text) :
    (front ++ ("</".toList ++ raw ++ gap ++ ">".toList)).reverse =
      '>' :: (gap.reverse ++ (raw.reverse ++ '/' :: '<' :: front.reverse)) := by
  simp

/-- A name ends with one of its characters. -/
private theorem exists_reverse_eq_cons {raw : Text} (hchars : raw.IsNameChars) (hne : raw ≠ []) :
    ∃ c rest, raw.reverse = c :: rest ∧ isNameChar c = true := by
  cases hreverse : raw.reverse with
  | nil => exact absurd (List.reverse_eq_nil_iff.mp hreverse) hne
  | cons c rest =>
      have hc : c ∈ raw.reverse := hreverse ▸ List.mem_cons_self
      exact ⟨c, rest, rfl, hchars c (List.mem_reverse.mp hc)⟩

/-- The name in a closing tag at the end of a text is found by going back over the spaces
before the `>`, and then over the characters of the name. -/
theorem IsClosingTagOf.unique {raw raw' front front' tag tag' : Text}
    (h : tag.IsClosingTagOf raw) (h' : tag'.IsClosingTagOf raw')
    (htext : front ++ tag = front' ++ tag') : raw = raw' := by
  obtain ⟨gap, hchars, hne, hgap, rfl⟩ := h
  obtain ⟨gap', hchars', hne', hgap', rfl⟩ := h'
  have hspaces {gap : Text} (hgap : gap.IsSpaces) : ∀ c ∈ gap.reverse, isSpace c = true :=
    fun c hc => hgap c (List.mem_reverse.mp hc)
  have hname {raw : Text} (hchars : raw.IsNameChars) : ∀ c ∈ raw.reverse, isNameChar c = true :=
    fun c hc => hchars c (List.mem_reverse.mp hc)
  have hends {raw : Text} (hchars : raw.IsNameChars) (hne : raw ≠ []) (rest : Text) :
      (raw.reverse ++ rest).head?.any isSpace = false := by
    obtain ⟨c, word, hreverse, hc⟩ := exists_reverse_eq_cons hchars hne
    have hspace : isSpace c ≠ true := by
      intro hspace
      rw [isNameChar_eq_false_of_isSpace hspace] at hc
      exact Bool.false_ne_true hc
    simpa [hreverse] using hspace
  have hback := congrArg List.reverse htext
  rw [reverse_closingTag, reverse_closingTag] at hback
  obtain ⟨_, hback⟩ := run_unique (hspaces hgap) (hspaces hgap') (hends hchars hne _)
    (hends hchars' hne' _) (List.cons.inj hback).2
  obtain ⟨hsame, _⟩ := run_unique (hname hchars) (hname hchars') rfl rfl hback
  exact List.reverse_inj.mp hsame

/-- A text with a closing tag does not end like an empty tag. -/
theorem IsTagged.not_suffix {text opening closing : Text} (h : text.IsTagged opening closing) :
    ¬"/>".toList <:+ text := by
  obtain ⟨middle, tag, _, _, ⟨gap, hchars, hne, hgap, rfl⟩, rfl⟩ := h
  rintro ⟨other, htext⟩
  have hback := congrArg List.reverse htext
  rw [reverse_closingTag, List.reverse_append] at hback
  -- the character before the `>` is a space or belongs to the name
  obtain ⟨_, hback⟩ := List.cons.inj hback
  cases hreverse : gap.reverse with
  | nil =>
      obtain ⟨c, rest, hraw, hc⟩ := exists_reverse_eq_cons hchars hne
      rw [hreverse, hraw] at hback
      rw [← (List.cons.inj hback).1] at hc
      exact absurd hc (by decide)
  | cons c rest =>
      have hc : c ∈ gap.reverse := hreverse ▸ List.mem_cons_self
      rw [hreverse] at hback
      have hspace := hgap c (List.mem_reverse.mp hc)
      rw [← (List.cons.inj hback).1] at hspace
      exact absurd hspace (by decide)

/-- A text has one name in front and one at its end. -/
theorem IsTagged.unique {text opening opening' closing closing' : Text}
    (h : text.IsTagged opening closing) (h' : text.IsTagged opening' closing') :
    opening = opening' ∧ closing = closing' := by
  obtain ⟨middle, tag, hchars, hbehind, htag, htext⟩ := h
  obtain ⟨middle', tag', hchars', hbehind', htag', htext'⟩ := h'
  refine ⟨?_, htag.unique htag' (htext.symm.trans htext')⟩
  have hfront : opening ++ (middle ++ tag) = opening' ++ (middle' ++ tag') := by
    have hsame := htext.symm.trans htext'
    simpa using hsame
  exact (run_unique hchars hchars' hbehind hbehind' hfront).1

end Text

/-! ## Elements -/

/-- If the node is an element, its tags have the same name as they are written, a colon in
front apart; it has a closing tag unless it is written as one empty tag. -/
def Node.TagsMatch (source : Text) : Node → Prop
  | element span _ _ children =>
      span.IsSliceOf source ∧
      ((children = [] ∧ "/>".toList <:+ span.text) ∨
        ∃ opening closing, span.text.IsTagged opening closing) ∧
      ∀ opening closing, span.text.IsTagged opening closing →
        opening.withoutColon = closing.withoutColon
  | _ => True

variable {source : Text} {options : ParseOptions} {tokens : List Token}

/-- The span of an element is what its first and last tokens were read from, with something
between them that does not go on with the name. -/
theorem Token.Placed.exists_through_eq {first : Span} {name : Name} {last : Token}
    (h : Token.Placed source [.tagStart first name, last]) (hname : first.EndsName source) :
    ∃ between : Text,
      (Span.through source first last.span).text = first.text ++ between ++ last.span.text ∧
        (between ++ last.span.text).head?.any isNameChar = false := by
  obtain ⟨rest, hrest, hhead⟩ := hname
  obtain ⟨between, _, hslice⟩ := Text.exists_slice?_eq_append
    (h.isSliceOf (.tagStart first name) (by simp)) (h.isSliceOf last (by simp)) h.stop_le_start
  obtain ⟨before, after, hsource, hstart, _⟩ := Text.slice?_eq_some_iff.mp hslice
  have hdrop : Text.dropSize? first.stop source = some (between ++ last.span.text ++ after) := by
    refine Text.dropSize?_eq_some_iff.mpr ⟨before ++ first.text, ?_, ?_⟩
    · rw [hsource]
      simp [Token.span]
    · rw [Text.size_append, hstart]
      rfl
  refine ⟨between, ?_, ?_⟩
  · have htext := congrArg (Option.getD · []) hslice
    exact htext
  · obtain rfl := Option.some.inj (hrest.symm.trans hdrop)
    cases hword : between ++ last.span.text with
    | nil => rfl
    | cons c word => simpa [hword] using hhead

/-- Tokens that were read make elements with matching tags. -/
theorem Token.vouch_tagsMatch (hplaced : Token.Placed source tokens)
    (hspelled : ∀ token ∈ tokens, token.Spelled)
    (hnames : ∀ first name, .tagStart first name ∈ tokens → first.EndsName source) :
    Token.Vouch source (Node.TagsMatch source) tokens where
  leaf token _ node hleaf := by
    cases token with
    | text | cdata | comment | instruction | doctype =>
        obtain rfl := Option.some.inj hleaf
        trivial
    | _ => cases hleaf
  subset _ _ _ := trivial
  element first name last attributes children hends hcloses _ := by
    have hfirst : Token.tagStart first name ∈ tokens := hends.subset (by simp)
    have hlast : last ∈ tokens := hends.subset (by simp)
    have hpair := hplaced.of_sublist hends
    obtain ⟨between, htext, hhead⟩ := hpair.exists_through_eq (hnames first name hfirst)
    refine ⟨hpair.through.1, ?_⟩
    cases hspelled _ hfirst with
    | @tagStart start opening _ hchars hname =>
        cases hspelled _ hlast with
        | emptyTagEnd stop =>
            have hsuffix : "/>".toList <:+ (Span.through source _ _).text :=
              htext ▸ List.suffix_append _ _
            exact ⟨Or.inl ⟨hcloses, hsuffix⟩,
              fun _ _ htagged => absurd hsuffix htagged.not_suffix⟩
        | @closeTag stop closing gap closingName hchars' hgap hname' =>
            have htag : Text.IsClosingTagOf _ closing :=
              ⟨gap, hchars', Name.ne_nil_of_ofQualified? hname', hgap, rfl⟩
            have htagged : (Span.through source _ _).text.IsTagged opening closing :=
              ⟨between, _, hchars, hhead, htag, htext⟩
            refine ⟨Or.inr ⟨opening, closing, htagged⟩, fun opening' closing' htagged' => ?_⟩
            obtain ⟨rfl, rfl⟩ := htagged.unique htagged'
            exact (Name.ofQualified?_beq_iff hchars hchars' hname hname').mp hcloses
        | _ => exact hcloses.elim

/-! ## Closing tags -/

/-- Of the elements that are open behind the tokens, `first` starts the innermost one: there
is only its start tag and finished content behind. -/
def Token.OpensLast (source : Text) (options : ParseOptions) (tokens : List Token)
    (first : Span) (name : Name) : Prop :=
  ∃ (outer content : List Token) (attributes : List Attribute) (tagEnd : Span)
    (children : List Node), ContentTokens source options content children ∧
      tokens = outer ++ (.tagStart first name :: (attributes.map .tagAttribute ++
        .tagEnd tagEnd :: content))

theorem Token.OpensLast.mem {first : Span} {name : Name}
    (h : OpensLast source options tokens first name) : .tagStart first name ∈ tokens := by
  obtain ⟨_, _, _, _, _, _, rfl⟩ := h
  simp

namespace Builder

variable {builder : Builder} {before later : List Token} {last : Span} {closing : Name}

/-- A closing tag comes only where the builder is inside an element. -/
theorem stage_of_closeTag {middle stop : TokenStream}
    (hbefore : TokenStream.Yields (.ofSource source) before middle)
    (hlater : TokenStream.Yields middle (.closeTag last closing :: later) stop)
    (htakes : Takes options { source } before builder) : builder.stage = .content := by
  have houtcome : Outcome source (middle.region, middle.depth)
      (before.foldlM (take options) { source }) := outcome_of_ofSource hbefore
  unfold Takes at htakes
  rw [htakes] at houtcome
  cases houtcome with
  | taken hstep =>
      cases hlater with
      | @cons _ found next _ _ _ hskips hrest hnext _ =>
          obtain ⟨_, hmay, _⟩ := TokenStream.spelled_of_step hrest hnext
          have hregion : found.region = .content := by simpa [Token.mayStandIn] using hmay
          have hinside := hstep.of_skips hskips
          rw [hregion] at hinside
          generalize found.depth = depth at hinside
          cases hinside with
          | beforeRoot hregion => rcases hregion with hregion | hregion <;> cases hregion
          | content => rfl

/-- Where the builder is inside an element, the innermost open element is the last that the
tokens have opened. -/
theorem Reached.exists_opensLast (h : Reached source options before builder)
    (hstage : builder.stage = .content) :
    ∃ draft first name attributes children, Token.OpensLast source options before first name ∧
      builder = ⟨source, Draft.openElement draft ⟨first, name, attributes, children⟩,
        .content⟩ := by
  cases h with
  | content houter hopened =>
      cases houter with
      | prolog => exact absurd rfl hopened
      | inside first name attributes tagEnd _ hcontent =>
          exact ⟨_, first, name, _, _, ⟨_, _, attributes, tagEnd, _, hcontent, rfl⟩, rfl⟩
  | _ => cases hstage

/-- A closing tag closes the innermost element that is open, and it is refused only for its
name. -/
theorem closes_of_yields {stop : TokenStream}
    (hyields : TokenStream.Yields (.ofSource source) (before ++ .closeTag last closing :: later)
      stop)
    (htakes : Takes options { source } before builder) :
    ∃ first name, Token.OpensLast source options before first name ∧
      ((name == closing) = true →
        ∃ next, take options builder (.closeTag last closing) = .ok next) ∧
      ((name == closing) = false → take options builder (.closeTag last closing) =
        .error (.located source last (.parse (.mismatchedTag
          (String.ofList name.display) (String.ofList closing.display))))) := by
  obtain ⟨hplaced, _⟩ := hyields.placed (TokenStream.ofSource_in source)
  obtain ⟨middle, hbefore, hlater⟩ := TokenStream.yields_append_iff.mp hyields
  have htokens : Token.Placed source (before ++ [.closeTag last closing]) :=
    hplaced.of_sublist (List.Sublist.append (.refl _) (by simp))
  have hreached : Reached source options before builder :=
    reached_of_takes (.prolog .nil) (htokens.of_sublist (List.sublist_append_left _ _)) htakes
  obtain ⟨draft, first, name, attributes, children, hlast, rfl⟩ :=
    hreached.exists_opensLast (stage_of_closeTag hbefore hlater htakes)
  refine ⟨first, name, hlast, fun hname => ?_, fun hname => closeElement_of_ne hname⟩
  have hclose : ∃ next, closeElement
      ⟨source, draft.openElement ⟨first, name, attributes, children⟩, .content⟩ last
      (some closing) = .ok next :=
    ⟨_, closeElement_eq_ok_iff.mpr
      ⟨by simpa using hname, _, (htokens.pair hlast.mem).hull?_eq, rfl⟩⟩
  exact hclose

end Builder

/-- In a document every closing tag repeats the name of its start tag as it is written, a
colon in front apart.  And wherever a closing tag comes after tokens that were taken, it
belongs to a start tag: if the names agree in this way it is taken, and if not, reading
fails there, with both names. -/
theorem Document.tagsMatch_of_parse (source : Text) (options : ParseOptions) :
    (∀ document, Document.parse source options = .ok document →
      ∀ entry ∈ Node.preorderList 0 document.children, entry.2.TagsMatch source) ∧
    ∀ before last closing later error? builder,
      Token.ofSource source = (before ++ .closeTag last closing :: later, error?) →
      Builder.Takes options { source } before builder →
        ∃ first name opening written, Token.OpensLast source options before first name ∧
          first.text = "<".toList ++ opening ∧ last.text.IsClosingTagOf written ∧
          (opening.withoutColon = written.withoutColon →
            ∃ next, builder.take options (.closeTag last closing) = .ok next) ∧
          (opening.withoutColon ≠ written.withoutColon →
            Document.parse source options = .error (.located source last (.parse (.mismatchedTag
              (String.ofList opening.withoutColon) (String.ofList written.withoutColon))))) := by
  constructor
  · intro document h
    obtain ⟨tokens, htokens, _, hdocument⟩ := documentTokens_of_parse h
    obtain ⟨hplaced, hspelled⟩ := Token.placed_of_ofSource htokens
    obtain ⟨_, _, hyields, _⟩ := TokenStream.tokens_eq_iff.mp htokens
    exact (Node.allList_iff document.children 0).mp
      (hdocument.all (Token.vouch_tagsMatch hplaced hspelled fun _ _ hfirst =>
        hyields.endsName (TokenStream.ofSource_in source) hfirst))
  · intro before last closing later error? builder htokens htakes
    obtain ⟨_, hspelled⟩ := Token.placed_of_ofSource htokens
    obtain ⟨stop, _, hyields, _⟩ := TokenStream.tokens_eq_iff.mp htokens
    obtain ⟨first, name, hopened, htaken, hrefused⟩ := Builder.closes_of_yields hyields htakes
    have hfirst : (Token.tagStart first name).Spelled :=
      hspelled _ (List.mem_append_left _ hopened.mem)
    have hlast : (Token.closeTag last closing).Spelled := hspelled _ (by simp)
    cases hfirst with
    | @tagStart start opening _ hchars hname =>
        cases hlast with
        | @closeTag stop written gap _ hchars' hgap hname' =>
            have hsame := Name.ofQualified?_beq_iff hchars hchars' hname hname'
            refine ⟨_, name, opening, written, hopened, rfl,
              ⟨gap, hchars', Name.ne_nil_of_ofQualified? hname', hgap, rfl⟩,
              fun hagree => htaken (hsame.mpr hagree), fun hdiffer => ?_⟩
            have herror := hrefused (by simpa using mt hsame.mp hdiffer)
            rw [Name.display_of_ofQualified? hchars hname,
              Name.display_of_ofQualified? hchars' hname'] at herror
            refine parse_of_not_taken htokens ?_
            rw [List.foldlM_append, htakes]
            show List.foldlM _ _ _ = _
            rw [List.foldlM_cons, herror]
            rfl

/-- A document with qualified names, an empty tag and a `>` in a value; and in `<a></b>`,
the closing tag is refused. -/
theorem Document.tagsMatch_of_parse_mismatch :
    (∃ (source : Text) (document : Document), source = "<p:a k='>'><b/>x</p:a >".toList ∧
      Document.parse source = .ok document ∧
      ∀ entry ∈ Node.preorderList 0 document.children, entry.2.TagsMatch source) ∧
    ∃ before last closing builder,
      Token.ofSource "<a></b>".toList = (before ++ [.closeTag last closing], none) ∧
      Builder.Takes {} { source := "<a></b>".toList } before builder ∧
      Document.parse "<a></b>".toList =
        .error (.located "<a></b>".toList last (.parse (.mismatchedTag "a" "b"))) := by
  constructor
  · obtain ⟨source, hsource⟩ : ∃ source : Text, source = "<p:a k='>'><b/>x</p:a >".toList :=
      ⟨_, rfl⟩
    have hreads : (Document.parse source).isOk = true := by
      rw [hsource]
      decide +kernel
    obtain ⟨document, h⟩ := exists_eq_ok_of_isOk hreads
    exact ⟨source, document, hsource, h, (Document.tagsMatch_of_parse source {}).1 document h⟩
  · have htokens : Token.ofSource "<a></b>".toList =
        ([.tagStart ⟨"<a".toList, 0⟩ ⟨none, ⟨"a".toList, 1⟩⟩, .tagEnd ⟨">".toList, 2⟩] ++
          [.closeTag ⟨"</b>".toList, 3⟩ ⟨none, ⟨"b".toList, 5⟩⟩], none) := by
      with_unfolding_all rfl
    obtain ⟨builder, htakes⟩ : ∃ builder, Builder.Takes {} { source := "<a></b>".toList }
        [.tagStart ⟨"<a".toList, 0⟩ ⟨none, ⟨"a".toList, 1⟩⟩, .tagEnd ⟨">".toList, 2⟩] builder :=
      ⟨_, rfl⟩
    refine ⟨_, _, _, builder, htokens, htakes, ?_⟩
    obtain ⟨first, name, opening, written, hopened, hfirst, hlast, _, hrefused⟩ :=
      (Document.tagsMatch_of_parse "<a></b>".toList {}).2 _ _ _ _ _ _ htokens htakes
    obtain rfl : opening = "a".toList := by
      obtain ⟨rfl, _⟩ : first = ⟨"<a".toList, 0⟩ ∧ name = ⟨none, ⟨"a".toList, 1⟩⟩ := by
        simpa using hopened.mem
      have hfirst : "<".toList ++ "a".toList = "<".toList ++ opening := hfirst
      exact (List.append_cancel_left hfirst).symm
    obtain rfl : written = "b".toList := by
      have hclosing : Text.IsClosingTagOf "</b>".toList "b".toList :=
        ⟨[], List.all_eq_true.mp (by decide), by decide, Text.isSpaces_nil, rfl⟩
      have hsame : [] ++ "</b>".toList = [] ++ "</b>".toList := rfl
      exact hlast.unique hclosing hsame
    exact hrefused (by decide)

/-- The qualifier may be empty in only one of the tags of an element. -/
theorem Document.tags_differ_of_parse :
    ∃ document root, Document.parse "<:a></a>".toList = .ok document ∧
      document.root? = some root ∧ root.span.text.IsTagged ":a".toList "a".toList ∧
      ":a".toList ≠ "a".toList := by
  obtain ⟨document, h⟩ : ∃ document, Document.parse "<:a></a>".toList = .ok document :=
    exists_eq_ok_of_isOk (by decide +kernel)
  have hroot : (Document.parse "<:a></a>".toList).toOption.bind (·.root?.map Node.span) =
      some ⟨"<:a></a>".toList, 0⟩ := by
    decide +kernel
  rw [h] at hroot
  obtain ⟨root, hroot, hspan⟩ := Option.map_eq_some_iff.mp hroot
  have hclosing : Text.IsClosingTagOf "</a>".toList "a".toList :=
    ⟨[], List.all_eq_true.mp (by decide), by decide, Text.isSpaces_nil, rfl⟩
  refine ⟨document, root, h, hroot, ?_, by decide⟩
  rw [hspan]
  exact ⟨">".toList, "</a>".toList, List.all_eq_true.mp (by decide), by decide, hclosing, rfl⟩

end XmlOutline
