import XmlOutline.Proofs.RoundTrip.Reread

/-!
# Reading documents again

Around the root element there are comments and instructions, each on lines of its
own, and the line feeds between them are skipped.  With what is known of elements
this says how the whole output is read.

Main statement: `Document.requotes_of_toPretty`, which says that the plain output of
a document reads as the same tree, with quotes around text, and that a document
without text is written from that tree as it was.
-/

namespace XmlOutline

open CharClass

/-! ## Beside the root element -/

namespace AsideTokens

variable {source : Text} {before first second tokens : List Token} {nodes nodes' : List Node}

theorem append (hfirst : AsideTokens first nodes) (hsecond : AsideTokens second nodes') :
    AsideTokens (first ++ second) (nodes ++ nodes') := by
  induction hfirst with
  | nil => exact hsecond
  | comment span content _ ih => exact .comment span content ih
  | instruction span target content _ ih => exact .instruction span target content ih

theorem prolog (hbefore : PrologTokens source before nodes) (h : AsideTokens tokens nodes') :
    PrologTokens source (before ++ tokens) (nodes ++ nodes') := by
  induction h generalizing before nodes with
  | nil => simpa using hbefore
  | comment span content _ ih => simpa using ih (hbefore.comment span content)
  | instruction span target content _ ih =>
      simpa using ih (hbefore.instruction span target content)

theorem epilog (hbefore : EpilogTokens before nodes) (h : AsideTokens tokens nodes') :
    EpilogTokens (before ++ tokens) (nodes ++ nodes') := by
  induction h generalizing before nodes with
  | nil => simpa using hbefore
  | comment span content _ ih => simpa using ih (hbefore.comment span content)
  | instruction span target content _ ih =>
      simpa using ih (hbefore.instruction span target content)

end AsideTokens

namespace Layout

theorem writtenList_append (indent : Text) (level : Nat) (nodes nodes' : List Node) :
    writtenList indent level (nodes ++ nodes') =
      writtenList indent level nodes ++ writtenList indent level nodes' := by
  induction nodes with
  | nil => rfl
  | cons node nodes ih =>
      rw [List.cons_append, writtenList, writtenList, ih, List.append_assoc (_ ++ _)]

/-- At the top level nothing is indented. -/
theorem writtenList_top (indent : Text) (node : Node) (nodes : List Node) :
    writtenList indent 0 (node :: nodes) =
      '\n' :: (written indent 0 node ++ writtenList indent 0 nodes) := by
  rw [writtenList]
  rfl

end Layout

/-- Behind its first line feed the output starts with markup, unless with text. -/
theorem Layout.head?_of_writtenList {indent out : Text} {nodes : List Node}
    (hout : '\n' :: out = writtenList indent 0 nodes) (hne : nodes ≠ [])
    (hwritable : ∀ node ∈ nodes, node.Writable) (htext : ∀ node ∈ nodes, node.isText = false) :
    out.head? = some '<' := by
  cases nodes with
  | nil => exact absurd rfl hne
  | cons node nodes =>
      rw [writtenList_top] at hout
      rw [(List.cons.inj hout).2]
      exact head?_written indent (hwritable node List.mem_cons_self)
        (htext node List.mem_cons_self) 0 _

theorem Node.isText_eq_false_of_aside {node : Node} (h : node.isAside = true) :
    node.isText = false := by
  cases node with
  | text => cases h
  | _ => rfl

namespace TokenStream

variable {indent text tail : Text} {stream start middle stop : TokenStream}

theorem Skips.trans (hfirst : Skips start middle) (hsecond : Skips middle stop) :
    Skips start stop := by
  induction hfirst with
  | refl => exact hsecond
  | step hrest hstep _ ih => exact .step hrest hstep (ih hsecond)

theorem Yields.of_skips {tokens : List Token} (hskips : Skips start middle)
    (h : Yields middle tokens stop) (hne : tokens ≠ []) : Yields start tokens stop := by
  cases h with
  | nil => exact absurd rfl hne
  | cons hskips' hrest hstep hyields =>
      exact .cons (hskips.trans hskips') hrest hstep hyields

/-- The stream stands outside of the root element and before it: at the text, or at
the line feed in front of it. -/
structure AwaitsRoot (stream : TokenStream) (text : Text) : Prop where
  rest_eq : stream.cursor.rest = text ∨ stream.cursor.rest = '\n' :: text
  region_eq : stream.region = .start ∨ stream.region = .beforeDoctype
  depth_eq : stream.depth = 0

theorem AwaitsRoot.exists_isAt (h : stream.AwaitsRoot text) (hmarkup : text.head? = some '<') :
    ∃ found region, Skips stream found ∧ found.IsAt text region 0 ∧
      (region = .start ∨ region = .beforeDoctype) := by
  rcases h.rest_eq with hrest | hrest
  · exact ⟨stream, stream.region, .refl stream, ⟨hrest, rfl, h.depth_eq⟩, h.region_eq⟩
  · have hat : stream.IsAt (['\n'] ++ text) stream.region 0 := ⟨hrest, rfl, h.depth_eq⟩
    have hregion : stream.region.skipsSpaces = true := by
      rcases h.region_eq with hregion | hregion <;> rw [hregion] <;> rfl
    have hbehind : text.head?.any isSpace = false := by
      rw [hmarkup]
      rfl
    obtain ⟨found, hskips, hfound⟩ :=
      hat.skips_spaces (Text.isSpaces_singleton rfl) (by simp) hbehind hregion
    refine ⟨found, _, hskips, hfound, ?_⟩
    split
    · exact Or.inr rfl
    · exact h.region_eq

/-- What stands before the root element is read again. -/
theorem AwaitsRoot.yields_asides (nodes : List Node) (h : stream.AwaitsRoot text)
    (htext : '\n' :: text = Layout.writtenList indent 0 nodes ++ '\n' :: tail)
    (haside : ∀ node ∈ nodes, node.isAside = true) (hwritable : ∀ node ∈ nodes, node.Writable) :
    ∃ tokens nodes' next, Yields stream tokens next ∧ AsideTokens tokens nodes' ∧
      Node.RequotesList nodes nodes' ∧ next.AwaitsRoot tail := by
  induction nodes generalizing stream text with
  | nil =>
      obtain rfl := (List.cons.inj htext).2
      exact ⟨[], [], stream, .nil stream, .nil, .nil, h⟩
  | cons node nodes ih =>
      have hnode := haside node List.mem_cons_self
      have hnodeWritable := hwritable node List.mem_cons_self
      -- the next line feed comes right behind the node, whatever node follows it
      obtain ⟨behind, hbehind⟩ :
          ∃ behind, Layout.writtenList indent 0 nodes ++ '\n' :: tail = '\n' :: behind := by
        cases nodes with
        | nil => exact ⟨tail, rfl⟩
        | cons second others => exact ⟨_, by rw [Layout.writtenList_top, List.cons_append]⟩
      obtain rfl : text = Layout.written indent 0 node ++ '\n' :: behind := by
        rw [Layout.writtenList_top, List.cons_append, List.append_assoc, hbehind] at htext
        exact (List.cons.inj htext).2
      obtain ⟨found, region, hskips, hfound, hregion⟩ := h.exists_isAt
        (Layout.head?_written indent hnodeWritable (Node.isText_eq_false_of_aside hnode) 0 _)
      have htag : region ≠ .tag := by
        rcases hregion with rfl | rfl <;> decide
      obtain ⟨token, node', next, hyields, htokens, hrequotes, hnext⟩ :=
        hfound.yields_aside hnode hnodeWritable htag
      have hawaits : next.AwaitsRoot behind := by
        refine ⟨Or.inr hnext.rest_eq, Or.inr ?_, hnext.depth_eq⟩
        rw [hnext.region_eq]
        rcases hregion with rfl | rfl <;> rfl
      obtain ⟨tokens, nodes', last, hyields', htokens', hrequotes', hlast⟩ :=
        ih hawaits hbehind.symm (fun other hother => haside other (List.mem_cons_of_mem _ hother))
          fun other hother => hwritable other (List.mem_cons_of_mem _ hother)
      exact ⟨_, _, last, yields_append_iff.mpr ⟨next, hyields.of_skips hskips (by simp), hyields'⟩,
        htokens.append htokens', .cons hrequotes hrequotes', hlast⟩

/-- What stands behind the root element is read again, to the end of the text. -/
theorem IsAt.yields_asides (hindent : indent.IsSpaces) (nodes : List Node) {depth : Nat}
    (h : stream.IsAt (Layout.writtenList indent 0 nodes) .afterRoot depth)
    (haside : ∀ node ∈ nodes, node.isAside = true) (hwritable : ∀ node ∈ nodes, node.Writable) :
    ∃ tokens nodes' next, Yields stream tokens next ∧ AsideTokens tokens nodes' ∧
      Node.RequotesList nodes nodes' ∧ next.cursor.rest = [] := by
  induction nodes generalizing stream with
  | nil => exact ⟨[], [], stream, .nil stream, .nil, .nil, h.rest_eq⟩
  | cons node nodes ih =>
      have hnode := haside node List.mem_cons_self
      have hnodeWritable := hwritable node List.mem_cons_self
      have hmarkup := Layout.head?_written indent hnodeWritable
        (Node.isText_eq_false_of_aside hnode) 0 (Layout.writtenList indent 0 nodes)
      rw [Layout.writtenList, List.append_assoc] at h
      obtain ⟨found, hskips, hfound⟩ := h.skips_spaces (Layout.feed_isSpaces hindent 0)
        (List.cons_ne_nil _ _) (by rw [hmarkup]; rfl) rfl
      obtain ⟨token, node', next, hyields, htokens, hrequotes, hnext⟩ :=
        hfound.yields_aside hnode hnodeWritable (by decide)
      obtain ⟨tokens, nodes', last, hyields', htokens', hrequotes', hlast⟩ :=
        ih hnext (fun other hother => haside other (List.mem_cons_of_mem _ hother))
          fun other hother => hwritable other (List.mem_cons_of_mem _ hother)
      exact ⟨_, _, last, yields_append_iff.mpr ⟨next, hyields.of_skips hskips (by simp), hyields'⟩,
        htokens.append htokens', .cons hrequotes hrequotes', hlast⟩

/-- Before markup there is no byte order mark to be passed over. -/
theorem awaitsRoot_ofSource (hmarkup : text.head? = some '<') :
    (ofSource text).AwaitsRoot text := by
  have hsource : ofSource text = ⟨{ rest := text }, .start, 0⟩ := by
    unfold ofSource
    split
    · exact absurd (Option.some.inj hmarkup) (by decide)
    · rfl
  rw [hsource]
  exact ⟨Or.inl rfl, Or.inl rfl, rfl⟩

end TokenStream

/-! ## Whole documents -/

/-- What is written for nodes, one of them an element and all others comments and
instructions, has the tokens of a document, and they are read as these nodes but for
the quotes around text. -/
theorem DocumentTokens.exists_of_written {indent out : Text} (hindent : indent.IsSpaces)
    {before later children : List Node} {span : Span} {name : Name} {attributes : List Attribute}
    (hout : '\n' :: out =
      Layout.writtenList indent 0 (before ++ .element span name attributes children :: later))
    (hbefore : ∀ node ∈ before, node.isAside = true) (hlater : ∀ node ∈ later, node.isAside = true)
    (hwritable : Node.AllList Node.Writable
      (before ++ .element span name attributes children :: later)) :
    ∃ tokens nodes', Token.ofSource out = (tokens, none) ∧ DocumentTokens out {} tokens nodes' ∧
      Node.RequotesList (before ++ .element span name attributes children :: later) nodes' := by
  have htext : ∀ node ∈ before ++ .element span name attributes children :: later,
      node.isText = false := by
    refine List.forall_mem_append.mpr ⟨fun node hnode => ?_, List.forall_mem_cons.mpr
      ⟨rfl, fun node hnode => ?_⟩⟩
    · exact Node.isText_eq_false_of_aside (hbefore node hnode)
    · exact Node.isText_eq_false_of_aside (hlater node hnode)
  have hmarkup := Layout.head?_of_writtenList hout (by simp) hwritable.forall_mem htext
  obtain ⟨hwritableBefore, hwritableRoot, hwritableLater⟩ := Node.allList_append.mp hwritable
  have hchildren : ∀ child ∈ children, child.Writable ∧
      (child.isText = false → child.Rereadable out indent) :=
    Node.rereadable_list hindent children hwritableRoot.2
  have hroot := Layout.head?_written indent hwritableRoot.1 rfl 0
    (Layout.writtenList indent 0 later)
  -- the prolog up to the line feed before the root, the root, and the rest
  rw [Layout.writtenList_append, Layout.writtenList_top] at hout
  obtain ⟨prolog, nodes, ahead, hyieldsProlog, hprolog, hrequotesBefore, hahead⟩ :=
    (TokenStream.awaitsRoot_ofSource hmarkup).yields_asides before hout hbefore
      hwritableBefore.forall_mem
  obtain ⟨found, region, hskips, hfound, hregion⟩ := hahead.exists_isAt hroot
  have hallows : region.allowsElement = true := by
    rcases hregion with rfl | rfl <;> rfl
  obtain ⟨middle, root, behind, hyieldsRoot, helement, hrequotesRoot, hbehind⟩ :=
    hfound.yields_element hindent hallows hwritableRoot.1
      (fun child hchild => (hchildren child hchild).1) fun child hchild =>
      (hchildren child hchild).2
  have hne : middle ≠ [] := by
    cases helement with
    | empty | closed => exact List.cons_ne_nil _ _
  obtain ⟨epilog, nodes', last, hyieldsEpilog, hepilog, hrequotesLater, hlast⟩ :=
    hbehind.yields_asides hindent later hlater hwritableLater.forall_mem
  have hyields := TokenStream.yields_append_iff.mpr ⟨behind, TokenStream.yields_append_iff.mpr
    ⟨ahead, hyieldsProlog, hyieldsRoot.of_skips hskips hne⟩, hyieldsEpilog⟩
  refine ⟨prolog ++ middle ++ epilog, nodes ++ [root] ++ nodes',
    TokenStream.tokens_eq_iff.mpr ⟨last, last, hyields, .refl last, hlast⟩,
    .intro (hprolog.prolog .nil) helement (hepilog.epilog .nil), ?_⟩
  rw [List.append_assoc]
  exact hrequotesBefore.append (.cons hrequotesRoot hrequotesLater)

/-- The plain output of a document reads as the same tree with quotes around text, for
any indentation made of spaces.  Attribute values must hold no double quote, for the
output puts them between double quotes as they are, and no instruction may have the
target `xml`, for its output would be a declaration.  Without text the tree that was
read is written as the same output. -/
theorem Document.requotes_of_toPretty {source indent out : Text} {options : ParseOptions}
    {document : Document} (hindent : ∀ c ∈ indent, isSpace c = true)
    (hparse : Document.parse source options = .ok document)
    (hpretty : document.toPretty { indent, style := Style.plain } = .ok out)
    (hquotes : ∀ depth span name attributes children,
      (depth, .element span name attributes children) ∈ Node.preorderList 0 document.children →
      ∀ attr ∈ attributes, '"' ∉ attr.value.text)
    (htargets : ∀ depth span target content,
      (depth, .instruction span target content) ∈ Node.preorderList 0 document.children →
      target.text ≠ "xml".toList) :
    ∃ again, Document.parse out = .ok again ∧
      Node.RequotesList document.children again.children ∧
      ((∀ depth span content,
          (depth, .text span content) ∉ Node.preorderList 0 document.children) →
        again.toPretty { indent, style := Style.plain } = .ok out) := by
  obtain ⟨hseparated, before, later, span, name, attributes, children, hchildren, hbefore,
    hlater⟩ := separated_of_parse hparse
  have hlawful := lawful_of_parse hparse
  obtain ⟨hsupported, hwritten⟩ := feed_toPretty hlawful hpretty (by simp [hchildren])
  have hwritable := Node.writable_of_lawful hlawful hseparated hsupported hquotes htargets
  obtain ⟨tokens, nodes', htokens, hdocument, hrequotes⟩ :=
    DocumentTokens.exists_of_written hindent (hchildren ▸ hwritten) hbefore hlater
      (hchildren ▸ hwritable)
  rw [← hchildren] at hrequotes
  have hagain := parse_of_documentTokens htokens hdocument
  refine ⟨⟨nodes', out⟩, hagain, hrequotes, fun htext => ?_⟩
  have hall : Node.AllList (fun node => node.isText = false) document.children := by
    refine (Node.allList_iff _ 0).mpr fun entry hentry => ?_
    obtain ⟨depth, node⟩ := entry
    cases node with
    | text span content => exact absurd hentry (htext depth span content)
    | _ => rfl
  -- both trees have the same lines, and both have no line that comes out blank
  obtain ⟨houtline, hsupported'⟩ := hrequotes.outline_eq hall 0
  unfold toPretty at hpretty ⊢
  rw [toLines_eq hlawful Style.isRemovable_plain, hsupported] at hpretty
  rw [toLines_eq (lawful_of_parse hagain) Style.isRemovable_plain, hsupported', ← houtline]
  exact hpretty

theorem Document.requotes_of_toPretty_nested :
    ∃ document out again,
      Document.parse "<?a b?><r x='1'>t<p:c/><![CDATA[<]]></r>".toList = .ok document ∧
      document.toPretty { indent := ['\t'], style := Style.plain } = .ok out ∧
      Document.parse out = .ok again ∧
      Node.RequotesList document.children again.children := by
  obtain ⟨document, hparse⟩ : ∃ document,
      Document.parse "<?a b?><r x='1'>t<p:c/><![CDATA[<]]></r>".toList = .ok document :=
    exists_eq_ok_of_isOk (by decide +kernel)
  have hchecked : (Document.parse "<?a b?><r x='1'>t<p:c/><![CDATA[<]]></r>".toList).toOption.all
      (fun document =>
        (document.toPretty { indent := ['\t'], style := Style.plain }).isOk &&
        (Node.preorderList 0 document.children).all fun entry =>
          match entry.2 with
          | .element _ _ attributes _ => attributes.all fun attr => !attr.value.text.elem '"'
          | .instruction _ target _ => target.text != "xml".toList
          | _ => true) = true := by
    decide +kernel
  rw [hparse] at hchecked
  obtain ⟨hisOk, hall⟩ := Bool.and_eq_true_iff.mp hchecked
  have hnodes := List.all_eq_true.mp hall
  obtain ⟨out, hpretty⟩ := exists_eq_ok_of_isOk hisOk
  obtain ⟨again, hagain, hrequotes, _⟩ := Document.requotes_of_toPretty (by simp [isSpace]) hparse
    hpretty
    (fun depth span name attributes children hentry attr hattr => by
      have hattributes := List.all_eq_true.mp (hnodes _ hentry) attr hattr
      simpa using hattributes)
    (fun depth span target content hentry => by
      have htarget := hnodes _ hentry
      simpa using htarget)
  exact ⟨document, out, again, hparse, hpretty, hagain, hrequotes⟩

end XmlOutline
