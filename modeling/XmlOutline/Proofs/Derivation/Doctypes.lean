import XmlOutline.Proofs.Derivation.Declarations
import XmlOutline.Proofs.Derivation.OneRoot
import XmlOutline.Proofs.Reading.Doctypes
import XmlOutline.Proofs.Tags.Faults

/-!
# Document type declarations are opaque

A comment and an instruction leave the same tokens in the subset of a document type
declaration as before and behind it, and only there are they passed over.  So the tokens of a
document are cut at the declaration: what is around it leaves its nodes in order
(`Token.misc?`), and the declaration leaves one, for all of its text
(`PrologTokens.exists_aroundDoctype`).  That the cut is the only one is a matter of counting,
since a text has no second declaration.

Whatever is not this node comes from tokens before it or behind it, and so none of its spans
reaches into the declaration.

Main statement: `Document.exists_keepsDoctype_of_parse`.
-/

namespace XmlOutline

variable {source : Text} {options : ParseOptions} {tokens before middle after : List Token}
  {token : Token} {nodes : List Node} {whole : Span}

namespace Token

/-- The tokens of a whole document type declaration, and the span that they cover. -/
inductive IsDoctype (source : Text) : List Token → Span → Prop where
  | plain (span : Span) : IsDoctype source [.doctype span] span
  | subset {inner : List Token} (first last : Span)
      (hinner : ∀ token ∈ inner, token.isIgnoredInSubset = true) :
      IsDoctype source (.subsetOpen first :: (inner ++ [.subsetClose last]))
        (.through source first last)

/-- The node of a comment or of an instruction. -/
def misc? : Token → Option Node
  | comment _ content => some (.comment content)
  | instruction span target content => some (.instruction span target content)
  | _ => none

/-- The token may stand beside the root element and a document type declaration. -/
def isAside : Token → Bool
  | declaration _ => true
  | comment _ _ => true
  | instruction _ _ _ => true
  | text run => Text.isBlank run.text
  | _ => false

/-- Beside the root element and a declaration these tokens leave these nodes. -/
structure LeaveMisc (tokens : List Token) (nodes : List Node) : Prop where
  aside : ∀ token ∈ tokens, token.isAside = true
  nodes_eq : nodes = tokens.filterMap misc?

/-- The tokens before the root element are cut at the one document type declaration, and these
nodes are read from them. -/
structure AroundDoctype (source : Text) (tokens : List Token) (nodes : List Node)
    (before middle after : List Token) (whole : Span) : Prop where
  tokens_eq : tokens = before ++ middle ++ after
  isDoctype : IsDoctype source middle whole
  before_aside : ∀ token ∈ before, token.isAside = true
  after_aside : ∀ token ∈ after, token.isAside = true
  nodes_eq : nodes = before.filterMap misc? ++
    .unsupported whole .documentType :: after.filterMap misc?

theorem leaf?_of_misc? {node : Node} (h : token.misc? = some node) : token.leaf? = some node := by
  cases token with
  | comment | instruction => exact h
  | _ => cases h

theorem opensDoctype_of_isAside (h : token.isAside = true) : token.opensDoctype = false := by
  cases token with
  | doctype | subsetOpen => cases h
  | _ => rfl

theorem countP_opensDoctype_concat (htoken : token.isAside = true) :
    (tokens ++ [token]).countP opensDoctype = tokens.countP opensDoctype := by
  rw [List.countP_append, List.countP_singleton, opensDoctype_of_isAside htoken]
  rfl

theorem LeaveMisc.concat (h : LeaveMisc tokens nodes) (htoken : token.isAside = true) :
    LeaveMisc (tokens ++ [token]) (nodes ++ token.misc?.toList) where
  aside := List.forall_mem_append.mpr ⟨h.aside, List.forall_mem_singleton.mpr htoken⟩
  nodes_eq := by
    rw [List.filterMap_append, ← h.nodes_eq]
    cases hmisc : token.misc? <;> simp [hmisc]

theorem AroundDoctype.concat (h : AroundDoctype source tokens nodes before middle after whole)
    (htoken : token.isAside = true) :
    AroundDoctype source (tokens ++ [token]) (nodes ++ token.misc?.toList) before middle
      (after ++ [token]) whole where
  tokens_eq := by rw [h.tokens_eq, List.append_assoc _ after]
  isDoctype := h.isDoctype
  before_aside := h.before_aside
  after_aside := List.forall_mem_append.mpr ⟨h.after_aside, List.forall_mem_singleton.mpr htoken⟩
  nodes_eq := by
    rw [h.nodes_eq, List.filterMap_append]
    cases hmisc : token.misc? <;> simp [hmisc]

end Token

/-! ## Cutting the tokens -/

/-- Without a declaration there are comments and instructions only. -/
theorem PrologTokens.leaveMisc (h : PrologTokens source tokens nodes)
    (hnone : tokens.countP Token.opensDoctype = 0) : Token.LeaveMisc tokens nodes := by
  induction h with
  | nil => exact ⟨by simp, rfl⟩
  | declaration | comment | instruction =>
      rename_i ih
      rw [Token.countP_opensDoctype_concat rfl] at hnone
      exact (ih hnone).concat rfl
  | @blank _ _ run _ hblank ih =>
      have haside : (Token.text run).isAside = true := hblank
      rw [Token.countP_opensDoctype_concat haside] at hnone
      simpa [Token.misc?] using (ih hnone).concat haside
  | doctype | subset =>
      rw [List.countP_append] at hnone
      simp [Token.opensDoctype] at hnone

theorem EpilogTokens.leaveMisc (h : EpilogTokens tokens nodes) : Token.LeaveMisc tokens nodes := by
  induction h with
  | nil => exact ⟨by simp, rfl⟩
  | comment | instruction =>
      rename_i ih
      exact ih.concat rfl
  | @blank _ _ run _ hblank ih =>
      have haside : (Token.text run).isAside = true := hblank
      simpa [Token.misc?] using ih.concat haside

/-- With one declaration, the tokens are cut at it. -/
theorem PrologTokens.exists_aroundDoctype (h : PrologTokens source tokens nodes)
    (hone : tokens.countP Token.opensDoctype = 1) :
    ∃ before middle after whole,
      Token.AroundDoctype source tokens nodes before middle after whole := by
  induction h with
  | nil => cases hone
  | declaration | comment | instruction =>
      rename_i ih
      rw [Token.countP_opensDoctype_concat rfl] at hone
      obtain ⟨before, middle, after, whole, haround⟩ := ih hone
      exact ⟨before, middle, _, whole, haround.concat rfl⟩
  | @blank _ _ run _ hblank ih =>
      have haside : (Token.text run).isAside = true := hblank
      rw [Token.countP_opensDoctype_concat haside] at hone
      obtain ⟨before, middle, after, whole, haround⟩ := ih hone
      refine ⟨before, middle, after ++ [.text run], whole, ?_⟩
      simpa [Token.misc?] using haround.concat haside
  | @doctype before nodes span hbefore ih =>
      have hnone : before.countP Token.opensDoctype = 0 := by
        simpa [List.countP_append, Token.opensDoctype] using hone
      obtain ⟨haside, hnodes⟩ := hbefore.leaveMisc hnone
      exact ⟨before, _, [], span, (List.append_nil _).symm, .plain span, haside, by simp,
        by rw [hnodes]; rfl⟩
  | @subset before inner nodes first last hbefore hinner ih =>
      have hnone : before.countP Token.opensDoctype = 0 := by
        rw [List.countP_append, List.countP_cons_of_pos rfl] at hone
        omega
      obtain ⟨haside, hnodes⟩ := hbefore.leaveMisc hnone
      exact ⟨before, _, [], _, (List.append_nil _).symm, .subset first last hinner, haside,
        by simp, by rw [hnodes]; rfl⟩

theorem Token.Paired.not_opensDoctype (h : Token.Paired tokens) :
    ∀ token ∈ tokens, token.opensDoctype = false := by
  induction h with
  | nil => simp
  | @plain token rest hplain _ ih =>
      refine List.forall_mem_cons.mpr ⟨?_, ih⟩
      cases token with
      | doctype | subsetOpen => cases hplain
      | _ => rfl
  | @element first name inner rest last _ hlast _ ihinner ihrest =>
      refine List.forall_mem_cons.mpr ⟨rfl, List.forall_mem_append.mpr ⟨ihinner,
        List.forall_mem_cons.mpr ⟨?_, ihrest⟩⟩⟩
      cases last with
      | doctype | subsetOpen => cases hlast
      | _ => rfl

/-! ## The text and the place of the declaration -/

namespace Token

/-- The declaration ends where the grammar of its parts says. -/
theorem IsDoctype.text (h : IsDoctype source tokens whole) {start stop : TokenStream}
    (hyields : TokenStream.Yields start tokens stop) (hin : start.cursor.In source) :
    whole.text.IsDoctype := by
  cases h with
  | plain =>
      cases hyields with
      | cons _ hrest hstep _ =>
          obtain ⟨head, hhead, htext⟩ := TokenStream.declares_of_step hrest hstep
          rw [htext]
          exact .plain hhead
  | subset first last hinner =>
      obtain ⟨found, word, hskips, hword, hreads, hstart, hstop⟩ :=
        TokenStream.isDoctype_of_yields hyields hinner
      have hslice := (hskips.in hin).1.slice?_eq hreads
      rw [← hstart, ← hstop] at hslice
      rw [Span.through, hslice]
      exact hword

/-- The declaration is a piece of source, from where one of its tokens starts to where one of
them ends. -/
theorem IsDoctype.placed (h : IsDoctype source tokens whole)
    (hplaced : Token.Placed source tokens) :
    whole.IsSliceOf source ∧ (∃ first ∈ tokens, first.span.start = whole.start) ∧
      ∃ last ∈ tokens, last.span.stop = whole.stop := by
  cases h with
  | plain =>
      refine ⟨?_, ⟨_, List.mem_singleton_self _, rfl⟩, ⟨_, List.mem_singleton_self _, rfl⟩⟩
      exact hplaced.isSliceOf _ (List.mem_singleton_self _)
  | subset first last =>
      have hends : Token.Placed source [.subsetOpen first, .subsetClose last] :=
        hplaced.of_sublist (.cons_cons _ (List.sublist_append_right _ _))
      obtain ⟨hslice, hstop⟩ := hends.through
      exact ⟨hslice, ⟨_, List.mem_cons_self, rfl⟩, .subsetClose last, by simp, hstop.symm⟩

theorem Placed.inner (h : Token.Placed source (before ++ middle ++ after)) :
    Token.Placed source middle := by
  refine h.of_sublist (.trans (List.sublist_append_right before middle) ?_)
  exact List.sublist_append_left _ after

/-- Tokens before it end before it, and tokens behind it start behind it. -/
theorem IsDoctype.between (h : IsDoctype source middle whole)
    (hplaced : Token.Placed source (before ++ middle ++ after)) :
    (∀ token ∈ before, token.span.stop ≤ whole.start) ∧
      ∀ token ∈ after, whole.stop ≤ token.span.start := by
  obtain ⟨hfront, _, hbehind⟩ := List.pairwise_append.mp hplaced.inOrder
  obtain ⟨_, _, hbefore⟩ := List.pairwise_append.mp hfront
  obtain ⟨_, ⟨first, hfirst, hstart⟩, last, hlast, hstop⟩ := h.placed hplaced.inner
  refine ⟨fun token htoken => ?_, fun token htoken => ?_⟩
  · rw [← hstart]
    exact hbefore token htoken first hfirst
  · rw [← hstop]
    exact hbehind last (List.mem_append_right _ hlast) token htoken

end Token

/-! ## The other nodes -/

namespace Node

/-- No span of the node reaches into the other span. -/
def AvoidsSpan (whole : Span) (node : Node) : Prop :=
  ∀ span ∈ node.spans, span.stop ≤ whole.start ∨ whole.stop ≤ span.start

variable {property : Node → Prop}

/-- What holds of the nodes of comments and instructions holds of all that these leave. -/
theorem allList_filterMap_misc?
    (h : ∀ token ∈ tokens, ∀ node, token.misc? = some node → property node) :
    AllList property (tokens.filterMap Token.misc?) := by
  induction tokens with
  | nil => trivial
  | cons token tokens ih =>
      obtain ⟨htoken, hrest⟩ := List.forall_mem_cons.mp h
      cases hmisc : token.misc? with
      | none =>
          rw [List.filterMap_cons_none hmisc]
          exact ih hrest
      | some node =>
          rw [List.filterMap_cons_some hmisc]
          refine ⟨?_, ih hrest⟩
          have hnode := htoken node hmisc
          cases token with
          | comment | instruction =>
              obtain rfl := Option.some.inj hmisc
              exact hnode
          | _ => cases hmisc

theorem filterMap_unsupported?_eq_nil (depth : Nat)
    (h : AllList (fun node => node.unsupported? = none) nodes) :
    (preorderList depth nodes).filterMap (fun entry => entry.2.unsupported?) = [] :=
  List.filterMap_eq_nil_iff.mpr ((allList_iff nodes depth).mp h)

end Node

/-- The nodes of tokens on one side of a span avoid it. -/
theorem Token.avoidsSpan_of_misc? (hspelled : ∀ token ∈ tokens, token.Spelled)
    (haside : ∀ token ∈ tokens, token.span.stop ≤ whole.start ∨ whole.stop ≤ token.span.start) :
    Node.AllList (Node.AvoidsSpan whole) (tokens.filterMap misc?) := by
  refine Node.allList_filterMap_misc? fun token htoken node hmisc span hspan => ?_
  have hpart := (hspelled token htoken).isPartOf
    (mem_spans_of_leaf? (leaf?_of_misc? hmisc) hspan)
  rcases haside token htoken with hbefore | hbehind
  · exact Or.inl (Nat.le_trans hpart.stop_le hbefore)
  · exact Or.inr (Nat.le_trans hbehind hpart.start_le)

/-- And so do the nodes of an element behind it. -/
theorem ElementTokens.avoidsSpan {node : Node} (h : ElementTokens source options tokens node)
    (hspelled : ∀ token ∈ tokens, token.Spelled)
    (hbehind : ∀ token ∈ tokens, whole.stop ≤ token.span.start) :
    node.All (Node.AvoidsSpan whole) := by
  have hvouch : Token.Vouch source (fun node => ∀ span ∈ node.spans, whole.stop ≤ span.start)
      tokens := by
    refine Token.vouch_spans (fun token htoken _ span hspan => ?_) fun _ _ _ h => h
    exact Nat.le_trans (hbehind token htoken) ((hspelled token htoken).isPartOf hspan).start_le
  exact (h.all hvouch).mono fun _ hnode span hspan => Or.inr (hnode span hspan)

/-! ## Documents -/

/-- The tokens of a document are cut at the document type declaration and at the root element,
and these nodes are read from them. -/
structure Token.CutAtDoctype (source : Text) (options : ParseOptions) (tokens : List Token)
    (nodes : List Node) (before middle after element behind : List Token) (root : Node)
    (whole : Span) : Prop where
  tokens_eq : tokens = before ++ middle ++ (after ++ element ++ behind)
  isDoctype : IsDoctype source middle whole
  isElement : ElementTokens source options element root
  /-- All others are comments, instructions and what leaves no node. -/
  aside : ∀ token ∈ before ++ after ++ behind, token.isAside = true
  nodes_eq : nodes = before.filterMap misc? ++ .unsupported whole .documentType ::
    (after.filterMap misc? ++ root :: behind.filterMap misc?)

/-- The document type declaration of the document is one node, of the text `whole`. -/
structure Document.KeepsDoctype (source : Text) (options : ParseOptions) (document : Document)
    (before middle after element behind : List Token) (root : Node) (whole : Span) : Prop where
  cut : Token.CutAtDoctype source options (Token.ofSource source).1 document.children before middle
    after element behind root whole
  isSliceOf : whole.IsSliceOf source
  text : whole.text.IsDoctype
  unsupported_eq : (Node.preorderList 0 document.children).filterMap
    (fun entry => entry.2.unsupported?) = [(whole, .documentType)]
  /-- All other nodes, at any depth, were read from elsewhere. -/
  avoids : ∀ entry ∈ Node.preorderList 0 document.children,
    entry = (0, .unsupported whole .documentType) ∨ entry.2.AvoidsSpan whole
  toLines_eq : ∀ format, document.toLines format =
    .error (.located source whole (.unsupportedNode .documentType))

theorem DocumentTokens.exists_cutAtDoctype (h : DocumentTokens source options tokens nodes)
    (hone : tokens.countP Token.opensDoctype = 1) :
    ∃ before middle after element behind root whole, Token.CutAtDoctype source options tokens nodes
      before middle after element behind root whole := by
  cases h with
  | @intro front element behind nodes later root hprolog hroot hepilog =>
      obtain ⟨hbehind, hlater⟩ := hepilog.leaveMisc
      have helement : element.countP Token.opensDoctype = 0 :=
        List.countP_eq_zero.mpr fun token htoken => by
          simp [hroot.paired.not_opensDoctype token htoken]
      have hlast : behind.countP Token.opensDoctype = 0 :=
        List.countP_eq_zero.mpr fun token htoken => by
          simp [Token.opensDoctype_of_isAside (hbehind token htoken)]
      rw [List.countP_append, List.countP_append, helement, hlast] at hone
      obtain ⟨before, middle, after, whole, hfront, hdoctype, hbefore, hafter, hnodes⟩ :=
        hprolog.exists_aroundDoctype hone
      refine ⟨before, middle, after, element, behind, root, whole, ?_, hdoctype, hroot, ?_, ?_⟩
      · rw [hfront]
        simp
      · exact List.forall_mem_append.mpr ⟨List.forall_mem_append.mpr ⟨hbefore, hafter⟩, hbehind⟩
      · rw [hnodes, hlater]
        simp

namespace Token.CutAtDoctype

variable {element behind : List Token} {root : Node}

theorem isSliceOf (h : CutAtDoctype source options tokens nodes before middle after element
    behind root whole) (hplaced : Token.Placed source tokens) : whole.IsSliceOf source := by
  rw [h.tokens_eq] at hplaced
  exact (h.isDoctype.placed hplaced.inner).1

/-- The declaration is spelled out from wherever the tokens before it have been read to. -/
theorem text (h : CutAtDoctype source options tokens nodes before middle after element behind root
    whole) {stop : TokenStream} (hyields : (TokenStream.ofSource source).Yields tokens stop) :
    whole.text.IsDoctype := by
  rw [h.tokens_eq] at hyields
  obtain ⟨_, hyields, _⟩ := TokenStream.yields_append_iff.mp hyields
  obtain ⟨start, hbefore, hmiddle⟩ := TokenStream.yields_append_iff.mp hyields
  obtain ⟨_, _, hin⟩ := hbefore.placed (TokenStream.ofSource_in source)
  exact h.isDoctype.text hmiddle hin

/-- No other node is unsupported. -/
theorem unsupported_eq (h : CutAtDoctype source options tokens nodes before middle after element
    behind root whole) :
    (Node.preorderList 0 nodes).filterMap (fun entry => entry.2.unsupported?) =
      [(whole, .documentType)] := by
  have hmisc (some : List Token) :
      Node.AllList (fun node => node.unsupported? = none) (some.filterMap misc?) := by
    refine Node.allList_filterMap_misc? fun token _ node hnode => ?_
    cases token with
    | comment | instruction =>
        obtain rfl := Option.some.inj hnode
        rfl
    | _ => cases hnode
  have hback : Node.AllList (fun node => node.unsupported? = none)
      (after.filterMap misc? ++ root :: behind.filterMap misc?) :=
    Node.allList_append.mpr ⟨hmisc after, h.isElement.supported, hmisc behind⟩
  rw [h.nodes_eq, Node.preorderList_append, List.filterMap_append,
    Node.filterMap_unsupported?_eq_nil 0 (hmisc before), Node.preorderList, List.filterMap_append,
    Node.filterMap_unsupported?_eq_nil 0 hback]
  rfl

/-- The other nodes are read from tokens before the declaration and behind it. -/
theorem avoids (h : CutAtDoctype source options tokens nodes before middle after element
    behind root whole) (hplaced : Token.Placed source tokens)
    (hspelled : ∀ token ∈ tokens, token.Spelled) :
    ∀ entry ∈ Node.preorderList 0 nodes,
      entry = (0, .unsupported whole .documentType) ∨ entry.2.AvoidsSpan whole := by
  rw [h.tokens_eq] at hplaced hspelled
  obtain ⟨hstops, hstarts⟩ := h.isDoctype.between hplaced
  obtain ⟨hspelledFront, hspelledBack⟩ := List.forall_mem_append.mp hspelled
  obtain ⟨hstartsFront, hstartsBehind⟩ := List.forall_mem_append.mp hstarts
  obtain ⟨hstartsAfter, hstartsElement⟩ := List.forall_mem_append.mp hstartsFront
  obtain ⟨hspelledInner, hspelledBehind⟩ := List.forall_mem_append.mp hspelledBack
  obtain ⟨hspelledAfter, hspelledElement⟩ := List.forall_mem_append.mp hspelledInner
  obtain ⟨hspelledBefore, _⟩ := List.forall_mem_append.mp hspelledFront
  have hfront := avoidsSpan_of_misc? hspelledBefore fun token htoken =>
    Or.inl (hstops token htoken)
  have hback : Node.AllList (Node.AvoidsSpan whole)
      (after.filterMap misc? ++ root :: behind.filterMap misc?) :=
    Node.allList_append.mpr
      ⟨avoidsSpan_of_misc? hspelledAfter fun token htoken => Or.inr (hstartsAfter token htoken),
        h.isElement.avoidsSpan hspelledElement hstartsElement,
        avoidsSpan_of_misc? hspelledBehind fun token htoken =>
          Or.inr (hstartsBehind token htoken)⟩
  intro entry hentry
  rw [h.nodes_eq, Node.preorderList_append] at hentry
  rcases List.mem_append.mp hentry with hentry | hentry
  · exact Or.inr ((Node.allList_iff _ 0).mp hfront entry hentry)
  · rcases List.mem_cons.mp hentry with rfl | hentry
    · exact Or.inl rfl
    · exact Or.inr ((Node.allList_iff _ 0).mp hback entry hentry)

end Token.CutAtDoctype

/-- Where a text with a document type declaration is read, the declaration is one unsupported
node, and its text is the whole declaration, up to the `>` that ends it.  Nothing in its subset
becomes a node, and each comment and each instruction around it does, in order.  So the document
cannot be written, whatever the options. -/
theorem Document.exists_keepsDoctype_of_parse {document : Document}
    (h : Document.parse source options = .ok document)
    (hdoctype : ∃ token ∈ (Token.ofSource source).1, token.opensDoctype = true) :
    ∃ before middle after element behind root whole,
      document.KeepsDoctype source options before middle after element behind root whole := by
  obtain ⟨tokens, htokens, hsource, hdocument⟩ := documentTokens_of_parse h
  obtain ⟨hplaced, hspelled⟩ := Token.placed_of_ofSource htokens
  obtain ⟨_, _, hyields, _⟩ := TokenStream.tokens_eq_iff.mp htokens
  rw [htokens] at hdoctype
  have hone : tokens.countP Token.opensDoctype = 1 := by
    have hsome : 0 < tokens.countP Token.opensDoctype := List.countP_pos_iff.mpr hdoctype
    have hle := hyields.countP_opensDoctype_le
    omega
  obtain ⟨before, middle, after, element, behind, root, whole, hcut⟩ :=
    hdocument.exists_cutAtDoctype hone
  have hunsupported := hcut.unsupported_eq
  refine ⟨before, middle, after, element, behind, root, whole, by rwa [htokens],
    hcut.isSliceOf hplaced, hcut.text hyields, hunsupported, hcut.avoids hplaced hspelled,
    fun format => ?_⟩
  refine toLines_eq_error_iff.mpr ⟨whole, .documentType, ?_, by rw [hsource]⟩
  rw [Layout.firstUnsupportedList?_eq_findSome? _ 0, ← List.head?_filterMap, hunsupported]
  rfl

/-- In the subset `]>` stands in a comment, in an instruction and in an entity; around the
declaration there are an instruction and a comment. -/
theorem Document.exists_keepsDoctype_of_parse_subset :
    ∃ (source : Text) (document : Document), source =
      "<?p?><!DOCTYPE r [<!--]>--><?s ]>?> <!ENTITY e ']>'><!ELEMENT r (a)>] ><!--c--><r/>".toList ∧
      Document.parse source = .ok document ∧
      (∃ token ∈ (Token.ofSource source).1, token.opensDoctype = true) ∧
      ∃ before middle after element behind root whole,
        document.KeepsDoctype source {} before middle after element behind root whole := by
  obtain ⟨source, hsource⟩ : ∃ source : Text, source =
      "<?p?><!DOCTYPE r [<!--]>--><?s ]>?> <!ENTITY e ']>'><!ELEMENT r (a)>] ><!--c--><r/>".toList :=
    ⟨_, rfl⟩
  have hreads : (Document.parse source).isOk = true := by
    rw [hsource]
    decide +kernel
  have hany : (Token.ofSource source).1.any Token.opensDoctype = true := by
    rw [hsource]
    decide +kernel
  obtain ⟨document, h⟩ := exists_eq_ok_of_isOk hreads
  have hdoctype := List.any_eq_true.mp hany
  exact ⟨source, document, hsource, h, hdoctype,
    Document.exists_keepsDoctype_of_parse h hdoctype⟩

end XmlOutline
