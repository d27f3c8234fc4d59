import XmlOutline.Proofs.Derivation.Lawful
import XmlOutline.Proofs.Tiling.Extents

/-!
# Elements are woven of runs and markup

A derivation and the run of the token stream over the same tokens are followed
together.  Inside an element nothing is skipped, so each token starts where the one
before ended, and so do the nodes that are read from them.  The depth of the stream
is what brings it back to the content of the outer element behind an inner one.

The two main statements are proved by induction over the rules, one for elements
(`weavesElement_of_elementTokens`) and one for their content
(`weavesContent_of_contentTokens`).  They hold whether blank text is kept or not: a run
of text that leaves no node is still a run between two pieces of markup.  Since text is
read as far as it goes, no run starts where another one ends, and so each run comes to
stand in one place (`Node.Woven.prepend`).  Where all text is kept, elements are tiled
(`readsElement_of_elementTokens`).
-/

namespace XmlOutline

/-! ## Nodes that are read from one token -/

/-- The extent of a node that is read from one token is the span of the token. -/
theorem Token.extent_of_leaf? {token : Token} {node : Node} (hspelled : token.Spelled)
    (hleaf : token.leaf? = some node) :
    node.extent = token.span ∧ ∀ content, node = .comment content → 4 ≤ content.start := by
  cases hspelled with
  | @comment start content hcontent =>
      obtain rfl := Option.some.inj hleaf
      refine ⟨rfl, ?_⟩
      intro content hcomment
      cases hcomment
      exact Nat.le_add_left 4 start
  | text | cdata | instruction | doctype =>
      obtain rfl := Option.some.inj hleaf
      exact ⟨rfl, fun _ hcomment => Node.noConfusion hcomment⟩
  | _ => cases hleaf

namespace TokenStream

variable {source : Text} {start found next stop : TokenStream} {token : Token}
  {tokens : List Token} {node : Node}

/-! ## The first token of a run -/

/-- A token that was found at a place in a source, and the place behind it. -/
structure Finds (source : Text) (found : TokenStream) (token : Token) (next : TokenStream) :
    Prop where
  spelled : token.Spelled
  mayStand : token.mayStandIn found.region = true
  region_eq : next.region = (following found.region found.depth (some token)).1
  depth_eq : next.depth = (following found.region found.depth (some token)).2
  isSliceOf : token.span.IsSliceOf source
  stop_eq : token.span.stop = next.cursor.offset
  inSource : next.cursor.In source
  gap : ∃ gap : Text, gap.IsSpaces ∧ found.cursor.Reads (gap ++ token.span.text) next.cursor ∧
    token.span.start = found.cursor.offset + gap.size ∧ (gap ≠ [] → found.region = .tag)
  behind_text : token.isText = true →
    next.cursor.rest = [] ∨ next.cursor.rest.head? = some '<'

/-- But in a start tag there is nothing before the token. -/
theorem Finds.whole (h : Finds source found token next) (hregion : found.region ≠ .tag) :
    found.cursor.Reads token.span.text next.cursor ∧
      token.span.start = found.cursor.offset := by
  obtain ⟨gap, _, hreads, hstart, htag⟩ := h.gap
  have hnil : gap = [] := by
    by_cases hne : gap = []
    · exact hne
    · exact absurd (htag hne) hregion
  subst hnil
  exact ⟨hreads, hstart⟩

theorem Yields.uncons (h : Yields start (token :: tokens) stop) (hin : start.cursor.In source) :
    ∃ found next, Skips start found ∧ found.cursor.In source ∧ Finds source found token next ∧
      Yields next tokens stop := by
  cases h with
  | @cons _ found next _ _ _ hskips hrest hstep hyields =>
      obtain ⟨hin, _⟩ := hskips.in hin
      obtain ⟨hspelled, hmay, hgap⟩ := spelled_of_step hrest hstep
      obtain ⟨hslice, _, hstop, hnext⟩ := placed_of_step hin hrest hstep
      obtain ⟨_, _, _, hbehind⟩ := step_eq_ok_iff.mp hstep
      refine ⟨found, next, hskips, hin, ⟨hspelled, hmay, congrArg Prod.fst hbehind.symm,
        congrArg Prod.snd hbehind.symm, hslice, hstop, hnext, hgap, fun htext => ?_⟩, hyields⟩
      cases token with
      | text run => exact behind_text_of_step hrest hstep
      | _ => cases htext

/-- Inside an element the first token is found where the run starts. -/
theorem Yields.uncons_inside (h : Yields start (token :: tokens) stop)
    (hin : start.cursor.In source) (hregion : start.region = .content ∨ start.region = .tag) :
    ∃ next, Finds source start token next ∧ Yields next tokens stop := by
  obtain ⟨found, next, hskips, _, hfinds, hyields⟩ := h.uncons hin
  obtain rfl := hskips.eq_of_inside hregion
  exact ⟨next, hfinds, hyields⟩

theorem yields_nil_iff : Yields start [] stop ↔ stop = start := by
  constructor
  · intro h
    cases h
    rfl
  · intro h
    rw [h]
    exact .nil start

/-- What is read from a token alone is in place. -/
theorem Finds.inPlace (h : Finds source found token next) (hleaf : token.leaf? = some node)
    (hregion : found.region ≠ .tag) :
    node.InPlace source ∧ node.extent.start = found.cursor.offset ∧
      node.extent.stop = next.cursor.offset := by
  obtain ⟨hextent, hcomment⟩ := Token.extent_of_leaf? h.spelled hleaf
  rw [hextent]
  refine ⟨⟨?_, hcomment⟩, (h.whole hregion).2, h.stop_eq⟩
  rw [hextent]
  exact h.isSliceOf

/-! ## Tags -/

/-- The attributes of a start tag follow on one another. -/
theorem reads_of_attributes {attributes : List Attribute}
    (h : Yields start (attributes.map .tagAttribute) stop) (hin : start.cursor.In source)
    (hregion : start.region = .tag) :
    ∃ items : Text, start.cursor.Reads items stop.cursor ∧
      Text.IsAttributeList attributes items ∧ stop.region = .tag ∧ stop.depth = start.depth := by
  induction attributes generalizing start with
  | nil =>
      obtain rfl := yields_nil_iff.mp h
      exact ⟨[], .refl _, .nil, hregion, rfl⟩
  | cons attr attributes ih =>
      obtain ⟨next, hfinds, hyields⟩ := h.uncons_inside hin (Or.inr hregion)
      obtain ⟨gap, hgap, hreads, _⟩ := hfinds.gap
      have htag : next.region = .tag := by
        rw [hfinds.region_eq, hregion]
        rfl
      obtain ⟨items, hitems, hlist, hstop, hstopDepth⟩ := ih hyields hfinds.inSource htag
      exact ⟨_, hreads.trans hitems, .cons attr hgap hlist, hstop,
        hstopDepth.trans hfinds.depth_eq⟩

/-- A start tag up to where it ends. -/
theorem reads_of_tagStart {first : Span} {name : Name} {attributes : List Attribute}
    (h : Yields start (.tagStart first name :: (attributes.map .tagAttribute ++ tokens)) stop)
    (hin : start.cursor.In source) :
    ∃ found middle, Skips start found ∧ found.cursor.In source ∧
      first.start = found.cursor.offset ∧ middle.cursor.In source ∧ middle.region = .tag ∧
      middle.depth = found.depth ∧ Yields middle tokens stop ∧
      ∃ (raw items : Text) (offset : Nat), raw.IsNameChars ∧
        Name.ofQualified? ⟨raw, offset⟩ = some name ∧ Text.IsAttributeList attributes items ∧
        found.cursor.Reads ("<".toList ++ raw ++ items) middle.cursor := by
  obtain ⟨found, next, hskips, hin, hfinds, hyields⟩ := h.uncons hin
  obtain ⟨middle, hattributes, hyields⟩ := yields_append_iff.mp hyields
  obtain ⟨items, hitems, hlist, hregion, hdepth⟩ :=
    reads_of_attributes hattributes hfinds.inSource hfinds.region_eq
  have hmiddle := (hattributes.placed hfinds.inSource).2.2
  have hmay := hfinds.mayStand
  have htag : found.region ≠ .tag := by
    intro hregion
    rw [hregion] at hmay
    cases hmay
  obtain ⟨hreads, hstart⟩ := hfinds.whole htag
  refine ⟨found, middle, hskips, hin, hstart, hmiddle, hregion, hdepth.trans hfinds.depth_eq,
    hyields, ?_⟩
  cases hfinds.spelled with
  | tagStart hchars hname => exact ⟨_, items, _, hchars, hname, hlist, hreads.trans hitems⟩

/-! ## Elements and their content -/

/-- What is read from one place to the other is an element, with nothing behind it. -/
structure WeavesElement (source : Text) (options : ParseOptions) (start : TokenStream)
    (node : Node) (stop : TokenStream) : Prop where
  from_start : ∃ found, Skips start found ∧ node.extent.start = found.cursor.offset ∧
    stop.region = (if found.depth = 0 then .afterRoot else .content) ∧ stop.depth = found.depth
  stop_eq : node.extent.stop = stop.cursor.offset
  inSource : stop.cursor.In source
  inPlace : node.InPlace source
  markup : node.extent.text.head? = some '<'
  woven : node.All (Node.IsWoven source options)

/-- What is read from one place in an element to the other are these nodes, with
nothing around them but the runs that are left out. -/
structure WeavesContent (source : Text) (options : ParseOptions) (start : TokenStream)
    (nodes : List Node) (stop : TokenStream) : Prop where
  region_eq : stop.region = .content
  depth_eq : stop.depth = start.depth
  inSource : stop.cursor.In source
  between : ∃ runs,
    Node.Woven source options start.cursor.offset runs nodes stop.cursor.offset
  woven : Node.AllList (Node.IsWoven source options) nodes

variable {options : ParseOptions} {nodes : List Node}

/-- The tokens of content that are no tags lead on in the same element. -/
theorem Finds.stays (h : Finds source found token next) (hregion : found.region = .content)
    (hleaf : token.leaf? = some node) : next.region = .content ∧ next.depth = found.depth := by
  have hmay := h.mayStand
  rw [hregion] at hmay
  rw [h.region_eq, h.depth_eq, hregion]
  cases token with
  | text | cdata | comment | instruction => exact ⟨rfl, rfl⟩
  | doctype => cases hmay
  | _ => cases hleaf

/-- Before markup there may be an empty run. -/
theorem woven_of_markup {runs : List Span} {here : Nat} (hin : start.cursor.In source)
    (hplace : node.InPlace source) (hmarkup : node.extent.text.head? = some '<')
    (hstart : node.extent.start = start.cursor.offset)
    (hrest : Node.Woven source options node.extent.stop runs nodes here) :
    ∃ runs, Node.Woven source options start.cursor.offset runs (node :: nodes) here := by
  have hslice : (⟨[], start.cursor.offset⟩ : Span).IsSliceOf source := hin.isSliceOf (.refl _)
  exact ⟨_, .cons (Node.isRun_nil hslice) hplace hmarkup hstart hrest⟩

/-- A run of text, and then others. -/
theorem weavesContent_of_text {run : Span} (h : Yields start (.text run :: tokens) stop)
    (hin : start.cursor.In source) (hregion : start.region = .content)
    (hrest : ∀ next, Yields next tokens stop → next.cursor.In source → next.region = .content →
      next.depth = start.depth → WeavesContent source options next nodes stop) :
    run.text ≠ [] ∧
      WeavesContent source options start (Node.ofRun options run ++ nodes) stop := by
  obtain ⟨next, hfinds, hyields⟩ := h.uncons_inside hin (Or.inl hregion)
  obtain ⟨hnextRegion, hnextDepth⟩ := hfinds.stays hregion rfl
  have hread := hrest next hyields hfinds.inSource hnextRegion hnextDepth
  obtain ⟨_, hstart⟩ := hfinds.whole (by rw [hregion]; decide)
  have hstop : run.stop = next.cursor.offset := hfinds.stop_eq
  cases hfinds.spelled with
  | text hdata hne =>
      refine ⟨hne, hread.region_eq, hread.depth_eq.trans hnextDepth, hread.inSource, ?_, ?_⟩
      · obtain ⟨runs, hwoven⟩ := hread.between
        rw [← hstop] at hwoven
        refine hwoven.prepend ⟨hstart, hfinds.isSliceOf, hdata.no_markup⟩ fun first hfirst => ?_
        -- the run was read as far as it goes
        rw [hstop] at hfirst ⊢
        exact hfirst.eq_nil hfinds.inSource (hfinds.behind_text rfl)
      · refine Node.allList_append.mpr ⟨?_, hread.woven⟩
        unfold Node.ofRun
        split
        · exact ⟨trivial, trivial⟩
        · trivial

/-- A piece of markup that is one token, and then others. -/
theorem weavesContent_of_leaf (h : Yields start (token :: tokens) stop)
    (hin : start.cursor.In source) (hregion : start.region = .content)
    (hleaf : token.leaf? = some node) (htext : token.isText = false)
    (hrest : ∀ next, Yields next tokens stop → next.cursor.In source → next.region = .content →
      next.depth = start.depth → WeavesContent source options next nodes stop) :
    WeavesContent source options start (node :: nodes) stop := by
  obtain ⟨next, hfinds, hyields⟩ := h.uncons_inside hin (Or.inl hregion)
  obtain ⟨hnextRegion, hnextDepth⟩ := hfinds.stays hregion hleaf
  have hread := hrest next hyields hfinds.inSource hnextRegion hnextDepth
  obtain ⟨hplace, hstart, hstop⟩ := hfinds.inPlace hleaf (by rw [hregion]; decide)
  have hmay := hfinds.mayStand
  rw [hregion] at hmay
  obtain ⟨hmarkup, hwoven⟩ :
      token.span.text.head? = some '<' ∧ node.All (Node.IsWoven source options) := by
    cases hfinds.spelled with
    | cdata | comment | instruction =>
        obtain rfl := Option.some.inj hleaf
        exact ⟨rfl, trivial⟩
    | text => cases htext
    | doctype => cases hmay
    | _ => cases hleaf
  refine ⟨hread.region_eq, hread.depth_eq.trans hnextDepth, hread.inSource, ?_,
    hwoven, hread.woven⟩
  obtain ⟨runs, hbetween⟩ := hread.between
  rw [← hstop] at hbetween
  rw [← (Token.extent_of_leaf? hfinds.spelled hleaf).1] at hmarkup
  exact woven_of_markup hin hplace hmarkup hstart hbetween

mutual

/-- An element is in place, and in all elements from it down runs and markup are woven. -/
theorem weavesElement_of_elementTokens {tokens : List Token} {node : Node}
    {start stop : TokenStream} (h : ElementTokens source options tokens node)
    (hyields : Yields start tokens stop) (hin : start.cursor.In source) :
    WeavesElement source options start node stop :=
  match h with
  | .empty first name attributes last => by
      have hplaced := (hyields.placed hin).1
      rw [← List.cons_append] at hplaced
      have hends : Token.Placed source [.tagStart first name, .emptyTagEnd last] :=
        hplaced.pair (by simp)
      obtain ⟨hslice, hstop⟩ := hends.through
      obtain ⟨found, middle, hskips, hfound, hstart, hmiddle, hregion, hdepth, hyields,
        raw, items, offset, hchars, hread, hlist, hreads⟩ := reads_of_tagStart hyields hin
      obtain ⟨next, hfinds, hyields⟩ := hyields.uncons_inside hmiddle (Or.inr hregion)
      obtain rfl := yields_nil_iff.mp hyields
      obtain ⟨gap, hgap, hend, _⟩ := hfinds.gap
      have htext : (Span.through source first last).text =
          "<".toList ++ raw ++ items ++ gap ++ "/>".toList := by
        have hwhole := hfound.slice?_eq (hreads.trans hend)
        rw [← hstart, ← hfinds.stop_eq] at hwhole
        unfold Span.IsSliceOf at hslice
        rw [hstop] at hslice
        refine (Option.some.inj (hslice.symm.trans hwhole)).trans ?_
        cases hfinds.spelled
        simp [Token.span]
      refine ⟨⟨found, hskips, hstart, ?_, ?_⟩, hstop.trans hfinds.stop_eq, hfinds.inSource,
        ⟨hslice, fun _ hcomment => Node.noConfusion hcomment⟩, ?_, ⟨[], .empty ?_⟩, trivial⟩
      · rw [hfinds.region_eq, hdepth]
        rfl
      · rw [hfinds.depth_eq, hdepth]
        rfl
      · exact congrArg List.head? htext
      · exact ⟨raw, items, gap, offset, hchars, hread, hlist, hgap, htext⟩
  | @ElementTokens.closed _ _ first name attributes tagEnd content children last closing hname
      hcontent => by
      have hends : Token.Placed source [.tagStart first name, .closeTag last closing] := by
        refine (hyields.placed hin).1.of_sublist (.cons_cons _ ?_)
        exact .trans (.cons _ (List.sublist_append_right _ _)) (List.sublist_append_right _ _)
      obtain ⟨hslice, hstop⟩ := hends.through
      obtain ⟨found, middle, hskips, hfound, hstart, hmiddle, hregion, hdepth, hyields,
        raw, items, offset, hchars, hread, hlist, hreads⟩ := reads_of_tagStart hyields hin
      -- the end of the start tag
      obtain ⟨opened, hopened, hyields⟩ := hyields.uncons_inside hmiddle (Or.inr hregion)
      have hdepthInside : opened.depth = found.depth + 1 := by
        rw [hopened.depth_eq, hdepth]
        rfl
      -- the content
      have hbefore := (hyields.placed hopened.inSource).2.1 (.closeTag last closing) (by simp)
      obtain ⟨closed, hinner, hyields⟩ := yields_append_iff.mp hyields
      have hchildren := weavesContent_of_contentTokens hcontent hinner hopened.inSource
        hopened.region_eq (by omega)
      obtain ⟨runs, hbetween⟩ := hchildren.between
      -- the closing tag
      obtain ⟨next, hfinds, hyields⟩ :=
        hyields.uncons_inside hchildren.inSource (Or.inl hchildren.region_eq)
      obtain rfl := yields_nil_iff.mp hyields
      have hclosedDepth : closed.depth = found.depth + 1 := by
        rw [hchildren.depth_eq, hdepthInside]
      obtain ⟨hclosing, _⟩ := hfinds.whole (by rw [hchildren.region_eq]; decide)
      obtain ⟨gap, hgap, hend, _⟩ := hopened.gap
      have hstartTag := hfound.slice?_eq (hreads.trans hend)
      have hclosingTag := hchildren.inSource.slice?_eq hclosing
      rw [← hstart] at hstartTag
      rw [← hfinds.stop_eq, ← hstop] at hclosingTag
      have helement : Node.ElementWoven source options (.through source first last) name attributes
          runs children := by
        refine .closed hstartTag ⟨raw, items, gap, offset, hchars, hread, hlist, hgap, ?_⟩
          hbetween hclosingTag ?_
        · cases hopened.spelled
          simp [Token.span]
        · cases hfinds.spelled with
          | @closeTag _ raw gap _ hchars hgap hread =>
              exact ⟨raw, gap, _, closing, hchars, hread, hname, hgap, rfl⟩
      have hmarkup : (Span.through source first last).text.head? = some '<' := by
        have hle : opened.cursor.offset ≤ (Span.through source first last).stop :=
          calc opened.cursor.offset ≤ last.start := hbefore
            _ ≤ last.stop := Nat.le_add_right _ _
            _ = (Span.through source first last).stop := hstop.symm
        obtain ⟨behind, hbehind⟩ := Text.isPrefix_of_slice? hstartTag hslice hle
        exact (congrArg List.head? hbehind).symm
      refine ⟨⟨found, hskips, hstart, ?_, ?_⟩, hstop.trans hfinds.stop_eq, hfinds.inSource,
        ⟨hslice, fun _ hcomment => Node.noConfusion hcomment⟩, hmarkup, ⟨runs, helement⟩,
        hchildren.woven⟩
      · rw [hfinds.region_eq, hclosedDepth, following_closeTag]
      · rw [hfinds.depth_eq, hclosedDepth]
        rfl

/-- Between the children of an element there are runs, and in all elements from them down
runs and markup are woven. -/
theorem weavesContent_of_contentTokens {tokens : List Token} {nodes : List Node}
    {start stop : TokenStream} (h : ContentTokens source options tokens nodes)
    (hyields : Yields start tokens stop) (hin : start.cursor.In source)
    (hregion : start.region = .content) (hdepth : start.depth ≠ 0) :
    WeavesContent source options start nodes stop :=
  match h with
  | .nil => by
      obtain rfl := yields_nil_iff.mp hyields
      exact ⟨hregion, rfl, hin, ⟨_, .last (Node.isRun_nil (hin.isSliceOf (.refl _)))⟩, trivial⟩
  | .element helement hrest => by
      obtain ⟨middle, hfirst, hsecond⟩ := yields_append_iff.mp hyields
      have hread := weavesElement_of_elementTokens helement hfirst hin
      obtain ⟨found, hskips, hstart, hmiddle, hmiddleDepth⟩ := hread.from_start
      obtain rfl := hskips.eq_of_inside (Or.inl hregion)
      rw [if_neg hdepth] at hmiddle
      have hlater := weavesContent_of_contentTokens hrest hsecond hread.inSource hmiddle
        (by rw [hmiddleDepth]; exact hdepth)
      refine ⟨hlater.region_eq, hlater.depth_eq.trans hmiddleDepth, hlater.inSource, ?_,
        hread.woven, hlater.woven⟩
      obtain ⟨runs, hbetween⟩ := hlater.between
      rw [← hread.stop_eq] at hbetween
      exact woven_of_markup hin hread.inPlace hread.markup hstart hbetween
  | .blank hblank hrest => by
      obtain ⟨_, hread⟩ := weavesContent_of_text hyields hin hregion
        fun _ hyields hin hregion hsame =>
          weavesContent_of_contentTokens hrest hyields hin hregion (by omega)
      rwa [Node.ofRun_of_not_keeps hblank] at hread
  | .text hkeeps hrest => by
      obtain ⟨hne, hread⟩ := weavesContent_of_text hyields hin hregion
        fun _ hyields hin hregion hsame =>
          weavesContent_of_contentTokens hrest hyields hin hregion (by omega)
      rwa [Node.ofRun_of_keeps hne hkeeps] at hread
  | .cdata _ _ hrest | .comment _ _ hrest | .instruction _ _ _ hrest =>
      weavesContent_of_leaf hyields hin hregion rfl rfl fun _ hyields hin hregion hsame =>
        weavesContent_of_contentTokens hrest hyields hin hregion (by omega)

end

/-! ## Elements with all their text -/

/-- What is read from one place to the other is an element, with nothing behind it. -/
structure ReadsElement (source : Text) (start : TokenStream) (node : Node) (stop : TokenStream) :
    Prop where
  from_start : ∃ found, Skips start found ∧ node.extent.start = found.cursor.offset ∧
    stop.region = (if found.depth = 0 then .afterRoot else .content) ∧ stop.depth = found.depth
  stop_eq : node.extent.stop = stop.cursor.offset
  inSource : stop.cursor.In source
  inPlace : node.InPlace source
  tiled : node.All (Node.Tiled source)

/-- An element is in place, and all elements from it down are tiled. -/
theorem readsElement_of_elementTokens (h : ElementTokens source options tokens node)
    (hkeep : options.keepWhitespace = true) (hyields : Yields start tokens stop)
    (hin : start.cursor.In source) : ReadsElement source start node stop := by
  obtain ⟨hstart, hstop, hbehind, hplace, _, hwoven⟩ := weavesElement_of_elementTokens h hyields hin
  exact ⟨hstart, hstop, hbehind, hplace, hwoven.mono fun _ => Node.IsWoven.tiled hkeep⟩

end TokenStream

end XmlOutline
