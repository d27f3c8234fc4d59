import XmlOutline.Proofs.Tiling.Elements

/-!
# Documents are tiled

Around the root element the token stream does skip something, but only spaces: the
declarations that leave no token are in the subset of a document type declaration,
and that is one node as a whole.  So at the top level the extents of the nodes stand
apart, with spaces and nothing else between them, but for a byte order mark and a
declaration at the very start.

Main statement: `Document.tiled_of_parse`, which says this of every document that
was read with all its text, and that all its elements are tiled.
-/

namespace XmlOutline

namespace TokenStream

variable {source : Text} {start found next stop : TokenStream} {token : Token}
  {tokens : List Token} {node : Node} {nodes : List Node}

/-! ## What is skipped between nodes -/

theorem isGap_refl (hin : start.cursor.In source) :
    source.IsGap start.cursor.offset start.cursor.offset :=
  ⟨[], Text.isSpaces_nil, hin.slice?_eq (.refl _)⟩

/-- But in a subset only spaces are skipped. -/
theorem Skips.isGap (h : Skips start stop) (hin : start.cursor.In source)
    (hregion : start.region ≠ .subset) :
    source.IsGap start.cursor.offset stop.cursor.offset := by
  obtain ⟨⟨word, hreads, hword⟩, _⟩ := h.reads
  exact ⟨word, hword.resolve_right hregion, hin.slice?_eq hreads⟩

/-- A node behind something that is skipped. -/
theorem Skips.apart (h : Skips start found) (hin : start.cursor.In source)
    (hregion : start.region ≠ .subset) (hplace : node.InPlace source)
    (hstart : node.extent.start = found.cursor.offset)
    (hstop : node.extent.stop = next.cursor.offset) (hnext : next.cursor.In source) :
    Node.Apart source start.cursor.offset [node] next.cursor.offset := by
  refine .cons ?_ hplace (.nil ?_)
  · rw [hstart]
    exact h.isGap hin hregion
  · rw [hstop]
    exact isGap_refl hnext

/-! ## Before the root element -/

/-- What is read from the start of a text up to a place before the root element. -/
structure ReadsProlog (source : Text) (nodes : List Node) (stop : TokenStream) : Prop where
  region_eq : stop.region = .start ∨ stop.region = .beforeDoctype ∨ stop.region = .beforeRoot
  depth_eq : stop.depth = 0
  inSource : stop.cursor.In source
  /-- Only the very start is in the first region. -/
  at_start : stop.region = .start → stop = ofSource source
  apart : ∃ here, source.IsLead here ∧ Node.Apart source here nodes stop.cursor.offset
  tiled : Node.AllList (Node.Tiled source) nodes

theorem readsProlog_ofSource (source : Text) : ReadsProlog source [] (ofSource source) := by
  obtain ⟨hregion, hdepth⟩ := ofSource_region source
  obtain ⟨mark, hmark, hreads⟩ := ofSource_reads source
  have hin := ofSource_in source
  have hstart : ({ rest := source } : Cursor).In source := ⟨[], .refl _⟩
  refine ⟨Or.inl hregion, hdepth, hin, fun _ => rfl, ⟨_, ?_, .nil (isGap_refl hin)⟩, trivial⟩
  exact ⟨mark, [], hmark, Or.inl rfl, by simpa using hstart.slice?_eq hreads⟩

/-- What is skipped before the root element does not lead out of there. -/
theorem ReadsProlog.of_skips (h : ReadsProlog source nodes start) (hskips : Skips start found) :
    (found.region = .start ∨ found.region = .beforeDoctype ∨ found.region = .beforeRoot) ∧
      found.depth = 0 ∧ start.region ≠ .subset := by
  obtain ⟨_, hregion, hdepth⟩ := hskips.reads
  have hstart := h.region_eq
  refine ⟨?_, hdepth.trans h.depth_eq, ?_⟩
  · rcases hregion with rfl | hregion
    · exact hstart
    · rw [hregion]
      split
      · exact Or.inr (Or.inl rfl)
      · exact hstart
  · rcases hstart with hstart | hstart | hstart <;> rw [hstart] <;> decide

theorem ReadsProlog.region_ne_tag (h : ReadsProlog source nodes start)
    (hskips : Skips start found) : found.region ≠ .tag := by
  obtain ⟨hfound, _, _⟩ := h.of_skips hskips
  rcases hfound with hfound | hfound | hfound <;> rw [hfound] <;> decide

/-- Behind another node the text is still before the root element. -/
theorem ReadsProlog.snoc (h : ReadsProlog source nodes start) (hskips : Skips start found)
    (hplace : node.InPlace source) (hstart : node.extent.start = found.cursor.offset)
    (hstop : node.extent.stop = stop.cursor.offset) (hin : stop.cursor.In source)
    (hregion : stop.region = .beforeDoctype ∨ stop.region = .beforeRoot)
    (hdepth : stop.depth = found.depth) (htiled : node.All (Node.Tiled source)) :
    ReadsProlog source (nodes ++ [node]) stop := by
  obtain ⟨_, hfoundDepth, houtside⟩ := h.of_skips hskips
  obtain ⟨here, hlead, hapart⟩ := h.apart
  refine ⟨Or.inr hregion, hdepth.trans hfoundDepth, hin, ?_, ⟨here, hlead, hapart.trans
    (hskips.apart h.inSource houtside hplace hstart hstop hin)⟩,
    Node.allList_append.mpr ⟨h.tiled, htiled, trivial⟩⟩
  intro hfirst
  rw [hfirst] at hregion
  exact absurd hregion (by decide)

/-- In a subset the tokens that leave no trace lead to no other region. -/
theorem region_of_inner (h : Yields start tokens stop) (hin : start.cursor.In source)
    (hregion : start.region = .subset)
    (hinner : ∀ token ∈ tokens, token.isIgnoredInSubset = true) :
    stop.region = .subset ∧ stop.depth = start.depth ∧ stop.cursor.In source := by
  induction tokens generalizing start with
  | nil =>
      obtain rfl := yields_nil_iff.mp h
      exact ⟨hregion, rfl, hin⟩
  | cons token tokens ih =>
      obtain ⟨found, next, hskips, _, hfinds, hyields⟩ := h.uncons hin
      obtain ⟨_, hfound, hdepth⟩ := hskips.reads
      have hfoundRegion : found.region = .subset := by
        rcases hfound with rfl | hfound
        · exact hregion
        · rw [hfound, hregion]
          rfl
      have hstays : following .subset found.depth (some token) = (.subset, found.depth) := by
        have htoken := hinner token (by simp)
        cases token with
        | entity | comment | instruction => rfl
        | _ => exact absurd htoken (by simp [Token.isIgnoredInSubset])
      obtain ⟨hstop, hstopDepth, hstopIn⟩ := ih hyields hfinds.inSource
        (by rw [hfinds.region_eq, hfoundRegion, hstays])
        (fun other hother => hinner other (by simp [hother]))
      refine ⟨hstop, ?_, hstopIn⟩
      rw [hstopDepth, hfinds.depth_eq, hfoundRegion, hstays, hdepth]

/-- A node that is read from one token before the root element. -/
theorem ReadsProlog.snoc_leaf (h : ReadsProlog source nodes start)
    (hyields : Yields start [token] stop) (hleaf : token.leaf? = some node)
    (htiled : node.All (Node.Tiled source)) : ReadsProlog source (nodes ++ [node]) stop := by
  obtain ⟨found, next, hskips, _, hfinds, hyields⟩ := hyields.uncons h.inSource
  obtain rfl := yields_nil_iff.mp hyields
  obtain ⟨hfound, _, _⟩ := h.of_skips hskips
  obtain ⟨hplace, hstart, hstop⟩ := hfinds.inPlace hleaf (h.region_ne_tag hskips)
  have hmay := hfinds.mayStand
  have hbehind : (following found.region found.depth (some token)).2 = found.depth ∧
      ((following found.region found.depth (some token)).1 = .beforeDoctype ∨
        (following found.region found.depth (some token)).1 = .beforeRoot) := by
    cases token with
    | comment | instruction =>
        rcases hfound with hfound | hfound | hfound <;> simp [following, hfound]
    | doctype => exact ⟨rfl, Or.inr rfl⟩
    | text | cdata =>
        rcases hfound with hfound | hfound | hfound <;> simp [Token.mayStandIn, hfound] at hmay
    | _ => cases hleaf
  rw [← hfinds.region_eq, ← hfinds.depth_eq] at hbehind
  exact h.snoc hskips hplace hstart hstop hfinds.inSource hbehind.2 hbehind.1 htiled

/-- A declaration stands at the very start, behind a byte order mark at most. -/
theorem ReadsProlog.snoc_declaration {span : Span} (h : ReadsProlog source [] start)
    (hyields : Yields start [.declaration span] stop) : ReadsProlog source [] stop := by
  obtain ⟨found, next, hskips, _, hfinds, hyields⟩ := hyields.uncons h.inSource
  obtain rfl := yields_nil_iff.mp hyields
  have hfirst : found.region = .start := by
    have hmay := hfinds.mayStand
    simpa [Token.mayStandIn] using hmay
  -- behind anything at all the declaration would not be recognized
  have hstart : start = found ∧ found = ofSource source := by
    obtain ⟨_, hregion, _⟩ := hskips.reads
    rcases hregion with rfl | hregion
    · exact ⟨rfl, h.at_start hfirst⟩
    · rw [hfirst] at hregion
      have := h.region_eq
      grind
  obtain ⟨rfl, rfl⟩ := hstart
  obtain ⟨hreads, _⟩ := hfinds.whole (by rw [hfirst]; decide)
  obtain ⟨mark, hmark, hmarkReads⟩ := ofSource_reads source
  have hsource : ({ rest := source } : Cursor).In source := ⟨[], .refl _⟩
  have hdeclaration : span.text.IsDeclaration := by
    cases hfinds.spelled with
    | declaration hword => exact hword
  refine ⟨Or.inr (Or.inl ?_), ?_, hfinds.inSource, ?_, ⟨_, ?_, .nil
    (isGap_refl hfinds.inSource)⟩, h.tiled⟩
  · rw [hfinds.region_eq, hfirst]
    rfl
  · rw [hfinds.depth_eq]
    exact h.depth_eq
  · intro hregion
    rw [hfinds.region_eq, hfirst] at hregion
    exact absurd hregion (by simp [following])
  · exact ⟨mark, span.text, hmark, Or.inr hdeclaration,
      hsource.slice?_eq (hmarkReads.trans hreads)⟩

/-- A document type declaration with a subset is one node, from its first token
through to its last. -/
theorem ReadsProlog.snoc_subset {inner : List Token} {first last : Span}
    (h : ReadsProlog source nodes start)
    (hyields : Yields start (.subsetOpen first :: (inner ++ [.subsetClose last])) stop)
    (hinner : ∀ token ∈ inner, token.isIgnoredInSubset = true) :
    ReadsProlog source (nodes ++ [.unsupported (.through source first last) .documentType])
      stop := by
  have hends : Token.Placed source [.subsetOpen first, .subsetClose last] := by
    refine (hyields.placed h.inSource).1.of_sublist (.cons_cons _ ?_)
    exact List.sublist_append_right _ _
  obtain ⟨hslice, hstop⟩ := hends.through
  obtain ⟨found, opened, hskips, _, hopened, hyields⟩ := hyields.uncons h.inSource
  obtain ⟨middle, hyieldsInner, hyields⟩ := yields_append_iff.mp hyields
  obtain ⟨hregion, hdepth, hmiddle⟩ :=
    region_of_inner hyieldsInner hopened.inSource hopened.region_eq hinner
  obtain ⟨closed, next, hskipsInner, _, hclosed, hyields⟩ := hyields.uncons hmiddle
  obtain rfl := yields_nil_iff.mp hyields
  refine h.snoc hskips ⟨hslice, fun _ hcomment => Node.noConfusion hcomment⟩
    (hopened.whole (h.region_ne_tag hskips)).2 (hstop.trans hclosed.stop_eq) hclosed.inSource
    (Or.inr hclosed.region_eq) ?_ trivial
  obtain ⟨_, _, hskipsDepth⟩ := hskipsInner.reads
  rw [hclosed.depth_eq]
  show closed.depth = _
  rw [hskipsDepth, hdepth, hopened.depth_eq]
  rfl

/-- Before the root element text is no token. -/
theorem ReadsProlog.not_yields_text {run : Span} (h : ReadsProlog source nodes start)
    (hyields : Yields start [.text run] stop) : False := by
  obtain ⟨found, next, hskips, _, hfinds, _⟩ := hyields.uncons h.inSource
  obtain ⟨hfound, _, _⟩ := h.of_skips hskips
  have hmay := hfinds.mayStand
  rcases hfound with hfound | hfound | hfound <;> simp [Token.mayStandIn, hfound] at hmay

theorem readsProlog_of_prologTokens (h : PrologTokens source tokens nodes)
    (hyields : Yields (ofSource source) tokens stop) : ReadsProlog source nodes stop := by
  induction h generalizing stop with
  | nil =>
      obtain rfl := yields_nil_iff.mp hyields
      exact readsProlog_ofSource source
  | declaration span _ ih =>
      obtain ⟨start, hbefore, hyields⟩ := yields_append_iff.mp hyields
      exact (ih hbefore).snoc_declaration hyields
  | comment span content _ ih =>
      obtain ⟨start, hbefore, hyields⟩ := yields_append_iff.mp hyields
      exact (ih hbefore).snoc_leaf hyields rfl trivial
  | instruction span target content _ ih =>
      obtain ⟨start, hbefore, hyields⟩ := yields_append_iff.mp hyields
      exact (ih hbefore).snoc_leaf hyields rfl trivial
  | doctype span _ ih =>
      obtain ⟨start, hbefore, hyields⟩ := yields_append_iff.mp hyields
      exact (ih hbefore).snoc_leaf hyields rfl trivial
  | subset first last _ hinner ih =>
      obtain ⟨start, hbefore, hyields⟩ := yields_append_iff.mp hyields
      exact (ih hbefore).snoc_subset hyields hinner
  | blank _ _ ih =>
      obtain ⟨start, hbefore, hyields⟩ := yields_append_iff.mp hyields
      exact ((ih hbefore).not_yields_text hyields).elim

/-! ## Behind the root element -/

/-- What is read behind the root element. -/
structure ReadsEpilog (source : Text) (start : TokenStream) (nodes : List Node)
    (stop : TokenStream) : Prop where
  region_eq : stop.region = .afterRoot
  inSource : stop.cursor.In source
  apart : Node.Apart source start.cursor.offset nodes stop.cursor.offset
  tiled : Node.AllList (Node.Tiled source) nodes

theorem ReadsEpilog.snoc_leaf {middle : TokenStream} (h : ReadsEpilog source start nodes middle)
    (hyields : Yields middle [token] stop) (hleaf : token.leaf? = some node)
    (htiled : node.All (Node.Tiled source)) : ReadsEpilog source start (nodes ++ [node]) stop := by
  obtain ⟨found, next, hskips, _, hfinds, hyields⟩ := hyields.uncons h.inSource
  obtain rfl := yields_nil_iff.mp hyields
  have hfound : found.region = .afterRoot := by
    obtain ⟨_, hregion, _⟩ := hskips.reads
    rcases hregion with rfl | hregion
    · exact h.region_eq
    · rw [hregion, h.region_eq]
      rfl
  obtain ⟨hplace, hstart, hstop⟩ := hfinds.inPlace hleaf (by rw [hfound]; decide)
  have houtside : middle.region ≠ .subset := by
    rw [h.region_eq]
    decide
  refine ⟨?_, hfinds.inSource, h.apart.trans
    (hskips.apart h.inSource houtside hplace hstart hstop hfinds.inSource),
    Node.allList_append.mpr ⟨h.tiled, htiled, trivial⟩⟩
  have hmay := hfinds.mayStand
  rw [hfinds.region_eq, hfound]
  cases token with
  | comment | instruction => rfl
  | text | cdata | doctype => simp [Token.mayStandIn, hfound] at hmay
  | _ => cases hleaf

theorem readsEpilog_of_epilogTokens (h : EpilogTokens tokens nodes)
    (hyields : Yields start tokens stop) (hin : start.cursor.In source)
    (hregion : start.region = .afterRoot) : ReadsEpilog source start nodes stop := by
  induction h generalizing stop with
  | nil =>
      obtain rfl := yields_nil_iff.mp hyields
      exact ⟨hregion, hin, .nil (isGap_refl hin), trivial⟩
  | comment span content _ ih =>
      obtain ⟨middle, hbefore, hyields⟩ := yields_append_iff.mp hyields
      exact (ih hbefore).snoc_leaf hyields rfl trivial
  | instruction span target content _ ih =>
      obtain ⟨middle, hbefore, hyields⟩ := yields_append_iff.mp hyields
      exact (ih hbefore).snoc_leaf hyields rfl trivial
  | @blank before nodes run _ _ ih =>
      obtain ⟨middle, hbefore, hyields⟩ := yields_append_iff.mp hyields
      have hread := ih hbefore
      obtain ⟨found, next, hskips, _, hfinds, hyields⟩ := hyields.uncons hread.inSource
      obtain ⟨_, hfound, _⟩ := hskips.reads
      -- outside elements text is no token
      have hmay := hfinds.mayStand
      rcases hfound with rfl | hfound
      · simp [Token.mayStandIn, hread.region_eq] at hmay
      · simp [Token.mayStandIn, hfound, hread.region_eq] at hmay

end TokenStream

/-! ## Whole documents -/

/-- In a document that was read with all its text, every element with children is its
start tag, its children abutting, and one closing tag; and at the top level there is
nothing but the nodes in turn, spaces, and at the start a byte order mark and a
declaration. -/
theorem Document.tiled_of_parse {source : Text} {document : Document}
    (h : Document.parse source { keepWhitespace := true } = .ok document) :
    (∀ depth span name attributes children,
      (depth, .element span name attributes children) ∈ Node.preorderList 0 document.children →
      children ≠ [] → Node.ElementTiled source span name attributes children) ∧
    ∃ here, source.IsLead here ∧ Node.Apart source here document.children source.size := by
  obtain ⟨tokens, htokens, _, hdocument⟩ := documentTokens_of_parse h
  obtain ⟨last, stop, hyields, hskips, hend⟩ := TokenStream.tokens_eq_iff.mp htokens
  generalize document.children = nodes at hdocument
  cases hdocument with
  | @intro before middle after nodes later root hprolog hroot hepilog =>
      obtain ⟨behind, hyields, hyieldsEpilog⟩ := TokenStream.yields_append_iff.mp hyields
      obtain ⟨ahead, hyieldsProlog, hyieldsRoot⟩ := TokenStream.yields_append_iff.mp hyields
      have hahead := TokenStream.readsProlog_of_prologTokens hprolog hyieldsProlog
      have hbehind :=
        TokenStream.readsElement_of_elementTokens hroot rfl hyieldsRoot hahead.inSource
      obtain ⟨found, hskipsRoot, hstart, hregion, _⟩ := hbehind.from_start
      obtain ⟨_, hdepth, houtside⟩ := hahead.of_skips hskipsRoot
      rw [if_pos hdepth] at hregion
      have hlast :=
        TokenStream.readsEpilog_of_epilogTokens hepilog hyieldsEpilog hbehind.inSource hregion
      refine ⟨?_, ?_⟩
      · intro depth span name attributes children hentry
        have htiled : Node.AllList (Node.Tiled source) (nodes ++ [root] ++ later) :=
          Node.allList_append.mpr
            ⟨Node.allList_append.mpr ⟨hahead.tiled, hbehind.tiled, trivial⟩, hlast.tiled⟩
        exact (Node.allList_iff _ 0).mp htiled _ hentry
      · obtain ⟨here, hlead, hapart⟩ := hahead.apart
        have hroot := hskipsRoot.apart hahead.inSource houtside hbehind.inPlace hstart
          hbehind.stop_eq hbehind.inSource
        have houtside : last.region ≠ .subset := by
          rw [hlast.region_eq]
          decide
        have hgap := hskips.isGap hlast.inSource houtside
        have hsize : stop.cursor.offset = source.size := by
          obtain ⟨⟨word, hreads⟩, _⟩ := hskips.in hlast.inSource
          have hrest : stop.cursor.rest = [] := hend
          have hsource : source = word ++ stop.cursor.rest := hreads.rest_eq
          rw [hsource, hrest, List.append_nil, hreads.offset_eq]
          exact Nat.zero_add _
        rw [hsize] at hgap
        refine ⟨here, hlead, ?_⟩
        simpa using ((hapart.trans hroot).trans hlast.apart).trans (.nil hgap)

theorem Document.tiled_of_parse_nested :
    ∃ document : Document,
      Document.parse "<a> x<!--y--><b/></a>\n".toList { keepWhitespace := true } = .ok document ∧
      (∀ depth span name attributes children,
        (depth, .element span name attributes children) ∈ Node.preorderList 0 document.children →
        children ≠ [] → Node.ElementTiled "<a> x<!--y--><b/></a>\n".toList span name attributes
          children) ∧
      ∃ here, Text.IsLead "<a> x<!--y--><b/></a>\n".toList here ∧
        Node.Apart "<a> x<!--y--><b/></a>\n".toList here document.children
          (Text.size "<a> x<!--y--><b/></a>\n".toList) := by
  obtain ⟨document, hparse⟩ : ∃ document, Document.parse "<a> x<!--y--><b/></a>\n".toList
      { keepWhitespace := true } = .ok document := exists_eq_ok_of_isOk (by decide +kernel)
  exact ⟨document, hparse, Document.tiled_of_parse hparse⟩

end XmlOutline
