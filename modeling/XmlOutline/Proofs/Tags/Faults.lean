import XmlOutline.Proofs.Positions.Faults
import XmlOutline.Proofs.Tags.Matching

/-!
# Which fault a text has

Where reading fails, the fault is told from the tokens of the text and from how they end,
without the builder.  Of several things that are wrong with a text, the fault is the one
that comes first: a closing tag that does not match, before whatever follows it, and what
is missing at the end only if the text could be cut into tokens to its end
(`Document.FaultAt`).

Which element is open behind some tokens is a matter of their tags alone: behind its start
tag all elements are closed again that were opened there (`Token.Paired`,
`Token.InnermostOpen`).  At most one element is like this (`Token.InnermostOpen.unique`),
which is seen by counting the tags off on a stack (`Token.nest`).  Names do not matter for
it, so a closing tag can be compared with the element that it would close.

Main statement: `Document.parse_eq_error_iff_faultAt`.
-/

namespace XmlOutline

variable {source : Text} {options : ParseOptions} {tokens front back : List Token}
  {token : Token} {node : Node} {nodes : List Node} {first first' : Span} {name name' : Name}
  {opening opening' : Span}

/-! ## Elements that are closed and elements that are open -/

namespace Token

/-- The token opens and closes nothing. -/
def isPlain : Token → Bool
  | tagAttribute _ => true
  | tagEnd _ => true
  | text _ => true
  | cdata _ _ => true
  | comment _ _ => true
  | instruction _ _ _ => true
  | _ => false

/-- The token closes an element. -/
def closesElement : Token → Bool
  | emptyTagEnd _ => true
  | closeTag _ _ => true
  | _ => false

/-- Whatever is opened in these tokens is closed in them, and nothing else. -/
inductive Paired : List Token → Prop where
  | nil : Paired []
  | plain {token : Token} {rest : List Token} (hplain : token.isPlain = true)
      (hrest : Paired rest) : Paired (token :: rest)
  | element (first : Span) (name : Name) {inner rest : List Token} {last : Token}
      (hinner : Paired inner) (hlast : last.closesElement = true) (hrest : Paired rest) :
      Paired (.tagStart first name :: (inner ++ last :: rest))

/-- The element that was opened last, of those that are not closed again, is the one that
starts with `first`. -/
def InnermostOpen (tokens : List Token) (first : Span) (name : Name) : Prop :=
  ∃ outer inner, tokens = outer ++ .tagStart first name :: inner ∧ Paired inner

/-- Every closing tag has the name of the element that it closes. -/
def ClosingTagsMatch (tokens : List Token) : Prop :=
  ∀ before last closing after, tokens = before ++ .closeTag last closing :: after →
    ∃ first name, InnermostOpen before first name ∧ (name == closing) = true

/-- The first closing tag with another name than the element that is open there is `last`,
with the name `closing`, and the element has the name `name`. -/
def FirstMismatch (tokens : List Token) (name : Name) (last : Span) (closing : Name) : Prop :=
  ∃ before first after, tokens = before ++ .closeTag last closing :: after ∧
    ClosingTagsMatch before ∧ InnermostOpen before first name ∧ (name == closing) = false

/-- The tokens end in the subset of a document type declaration that starts with
`opening`. -/
def EndsInSubset (tokens : List Token) (opening : Span) : Prop :=
  ∃ before inner, tokens = before ++ .subsetOpen opening :: inner ∧
    ∀ token ∈ inner, token.isIgnoredInSubset = true

end Token

namespace Document

/-- Where an error at the end is placed: at the beginning of a document type declaration that
does not end, and else at the end of the source. -/
inductive EndsAt (source : Text) (tokens : List Token) : Span → Prop where
  | subset {opening : Span} (hopen : Token.EndsInSubset tokens opening) :
      EndsAt source tokens opening
  | source (hnone : ∀ opening, ¬ Token.EndsInSubset tokens opening) :
      EndsAt source tokens (.endOf source)

/-- The fault of a text that is cut into these tokens, behind which there is possibly a
syntax error. -/
inductive FaultAt (source : Text) (tokens : List Token) :
    Option SyntaxError → Span → ParseFault → Prop where
  /-- A closing tag does not match, whatever follows it. -/
  | mismatched {error? : Option SyntaxError} {name closing : Name} {last : Span}
      (hfirst : Token.FirstMismatch tokens name last closing) :
      FaultAt source tokens error? last
        (.mismatchedTag (String.ofList name.display) (String.ofList closing.display))
  /-- The text ends, and an element is open. -/
  | unclosed {first : Span} {name : Name} (hmatch : Token.ClosingTagsMatch tokens)
      (hopen : Token.InnermostOpen tokens first name) :
      FaultAt source tokens none first (.unclosedTag (String.ofList name.display))
  /-- The text ends, and no element was started. -/
  | unexpectedEnd {span : Span} (hnone : ∀ first name, .tagStart first name ∉ tokens)
      (hend : EndsAt source tokens span) : FaultAt source tokens none span .unexpectedEnd
  /-- The text cannot be cut into tokens any further. -/
  | badSyntax {error : SyntaxError} {span : Span} (hmatch : Token.ClosingTagsMatch tokens)
      (hend : EndsAt source tokens span) :
      FaultAt source tokens (some error) span (.badSyntax error)

end Document

/-! ## One element at most is the innermost -/

namespace Token

/-- The start tags of the elements that are open behind the token, the innermost first. -/
def nest (opened : List (Span × Name)) : Token → List (Span × Name)
  | tagStart first name => (first, name) :: opened
  | emptyTagEnd _ => opened.tail
  | closeTag _ _ => opened.tail
  | _ => opened

theorem nest_of_isPlain (opened : List (Span × Name)) (h : token.isPlain = true) :
    nest opened token = opened := by
  cases token with
  | tagStart | emptyTagEnd | closeTag => cases h
  | _ => rfl

theorem nest_of_closesElement (opened : List (Span × Name)) (h : token.closesElement = true) :
    nest opened token = opened.tail := by
  cases token with
  | emptyTagEnd | closeTag => rfl
  | _ => cases h

/-- Tokens that are paired leave open what was open. -/
theorem Paired.foldl_nest (h : Paired tokens) (opened : List (Span × Name)) :
    tokens.foldl nest opened = opened := by
  induction h generalizing opened with
  | nil => rfl
  | plain hplain _ ih => rw [List.foldl_cons, nest_of_isPlain _ hplain, ih]
  | element first name _ hlast _ ihinner ihrest =>
      rw [List.foldl_cons, List.foldl_append, ihinner, List.foldl_cons,
        nest_of_closesElement _ hlast, ihrest]
      rfl

theorem InnermostOpen.head?_foldl_nest (h : InnermostOpen tokens first name) :
    (tokens.foldl nest []).head? = some (first, name) := by
  obtain ⟨outer, inner, rfl, hinner⟩ := h
  rw [List.foldl_append, List.foldl_cons, hinner.foldl_nest]
  rfl

theorem InnermostOpen.unique (h : InnermostOpen tokens first name)
    (h' : InnermostOpen tokens first' name') : first = first' ∧ name = name' :=
  Prod.ext_iff.mp (Option.some.inj (h.head?_foldl_nest.symm.trans h'.head?_foldl_nest))

theorem InnermostOpen.mem (h : InnermostOpen tokens first name) :
    .tagStart first name ∈ tokens := by
  obtain ⟨outer, inner, rfl, _⟩ := h
  simp

theorem paired_of_isPlain (h : ∀ token ∈ tokens, token.isPlain = true) : Paired tokens := by
  induction tokens with
  | nil => exact .nil
  | cons token tokens ih =>
      obtain ⟨htoken, hrest⟩ := List.forall_mem_cons.mp h
      exact .plain htoken (ih hrest)

theorem Paired.append (hfront : Paired front) (hback : Paired back) : Paired (front ++ back) := by
  induction hfront with
  | nil => exact hback
  | plain hplain _ ih => exact .plain hplain ih
  | element first name hinner hlast _ _ ih =>
      rw [List.cons_append, List.append_assoc]
      exact .element first name hinner hlast ih

theorem Paired.subsetOpen_notMem (h : Paired tokens) (span : Span) :
    .subsetOpen span ∉ tokens := by
  induction h with
  | nil => exact List.not_mem_nil
  | plain hplain _ ih =>
      rw [List.mem_cons, not_or]
      refine ⟨?_, ih⟩
      rintro rfl
      cases hplain
  | element first name _ hlast _ ihinner ihrest =>
      rw [List.mem_cons, List.mem_append, List.mem_cons, not_or, not_or, not_or]
      refine ⟨Token.noConfusion, ihinner, ?_, ihrest⟩
      rintro rfl
      cases hlast

/-! ## The end in a subset -/

/-- If no subset is opened in the tokens at the back, all of them stand in it. -/
theorem EndsInSubset.of_append (h : EndsInSubset (front ++ back) opening)
    (hback : ∀ span, .subsetOpen span ∉ back) :
    EndsInSubset front opening ∧ ∀ token ∈ back, token.isIgnoredInSubset = true := by
  obtain ⟨before, inner, hsplit, hinner⟩ := h
  rcases List.append_eq_append_iff.mp hsplit with ⟨middle, _, hmiddle⟩ | ⟨middle, hfront, hinner'⟩
  · exact absurd (hmiddle ▸ List.mem_append_right _ List.mem_cons_self) (hback opening)
  · cases middle with
    | nil =>
        rw [List.nil_append] at hinner'
        exact absurd (hinner' ▸ List.mem_cons_self) (hback opening)
    | cons token middle =>
        obtain ⟨rfl, rfl⟩ := List.cons.inj hinner'
        obtain ⟨hmiddle, hback⟩ := List.forall_mem_append.mp hinner
        exact ⟨⟨before, middle, hfront, hmiddle⟩, hback⟩

theorem EndsInSubset.unique (h : EndsInSubset tokens opening)
    (h' : EndsInSubset tokens opening') : opening = opening' := by
  obtain ⟨before, inner, rfl, hinner⟩ := h
  rw [List.append_cons] at h'
  have hnone (span : Span) : .subsetOpen span ∉ inner := fun hmem => by cases hinner _ hmem
  obtain ⟨⟨before', inner', hsplit, hinner'⟩, _⟩ := h'.of_append hnone
  -- the opening part is the last token of what is left, so nothing stands behind it
  rcases List.eq_nil_or_concat' inner' with rfl | ⟨inner', token, rfl⟩
  · obtain ⟨_, hsame⟩ := List.append_inj' hsplit rfl
    exact Token.subsetOpen.inj (List.cons.inj hsame).1
  · rw [← List.cons_append, ← List.append_assoc] at hsplit
    obtain ⟨_, hsame⟩ := List.append_inj' hsplit rfl
    obtain rfl := (List.cons.inj hsame).1
    cases hinner' (.subsetOpen opening) (by simp)

/-- Behind a start tag no subset is open. -/
theorem not_endsInSubset_of_tagStart (hfirst : .tagStart first name ∈ back)
    (hback : ∀ span, .subsetOpen span ∉ back) : ¬ EndsInSubset (front ++ back) opening :=
  fun h => nomatch (h.of_append hback).2 _ hfirst

theorem InnermostOpen.not_endsInSubset (h : InnermostOpen tokens first name) :
    ¬ EndsInSubset tokens opening := by
  obtain ⟨outer, inner, rfl, hinner⟩ := h
  refine not_endsInSubset_of_tagStart List.mem_cons_self fun span => ?_
  rw [List.mem_cons, not_or]
  exact ⟨Token.noConfusion, hinner.subsetOpen_notMem span⟩

/-- One more token leaves the subset, unless it may stand there. -/
theorem not_endsInSubset_concat (hopen : ∀ span, token ≠ .subsetOpen span)
    (h : token.isIgnoredInSubset = true → ¬ EndsInSubset tokens opening) :
    ¬ EndsInSubset (tokens ++ [token]) opening := by
  intro hends
  have hlast (span : Span) : .subsetOpen span ∉ [token] := fun hmem =>
    hopen span (List.mem_singleton.mp hmem).symm
  obtain ⟨hbefore, hignored⟩ := hends.of_append hlast
  exact h (hignored token List.mem_cons_self) hbefore

/-! ## The first closing tag that does not match -/

/-- Tokens in which all closing tags match end before one that does not. -/
theorem ClosingTagsMatch.isPrefix {before rest after : List Token} {last : Span} {closing : Name}
    (hmatch : ClosingTagsMatch front) (hopen : InnermostOpen before first name)
    (hname : (name == closing) = false)
    (hsplit : front ++ rest = before ++ .closeTag last closing :: after) : front <+: before := by
  rcases List.append_eq_append_iff.mp hsplit with ⟨middle, hbefore, _⟩ | ⟨middle, hfront, hmiddle⟩
  · exact ⟨middle, hbefore.symm⟩
  · cases middle with
    | nil => exact ⟨[], by rw [hfront, List.append_nil, List.append_nil]⟩
    | cons token middle =>
        obtain ⟨rfl, _⟩ := List.cons.inj hmiddle
        obtain ⟨other, name', hopen', hname'⟩ := hmatch before last closing middle hfront
        obtain ⟨_, rfl⟩ := hopen.unique hopen'
        rw [hname] at hname'
        cases hname'

theorem FirstMismatch.not_closingTagsMatch {last : Span} {closing : Name}
    (h : FirstMismatch tokens name last closing) : ¬ ClosingTagsMatch tokens := by
  obtain ⟨before, first, after, rfl, _, hopen, hname⟩ := h
  intro hmatch
  have hlength := (hmatch.isPrefix hopen hname (List.append_nil _)).length_le
  rw [List.length_append, List.length_cons] at hlength
  omega

theorem FirstMismatch.unique {last last' : Span} {closing closing' : Name}
    (h : FirstMismatch tokens name last closing) (h' : FirstMismatch tokens name' last' closing') :
    name = name' ∧ last = last' ∧ closing = closing' := by
  obtain ⟨before, first, after, hsplit, hbefore, hopen, hname⟩ := h
  obtain ⟨before', first', after', hsplit', hbefore', hopen', hname'⟩ := h'
  have hsame := hsplit.symm.trans hsplit'
  have hle := hbefore.isPrefix hopen' hname' hsame
  have hge := hbefore'.isPrefix hopen hname hsame.symm
  obtain rfl := hle.eq_of_length_le hge.length_le
  obtain ⟨htoken, _⟩ := List.cons.inj (List.append_cancel_left hsame)
  obtain ⟨rfl, rfl⟩ := Token.closeTag.inj htoken
  exact ⟨(hopen.unique hopen').2, rfl, rfl⟩

theorem FirstMismatch.exists_tagStart {last : Span} {closing : Name}
    (h : FirstMismatch tokens name last closing) : ∃ first, .tagStart first name ∈ tokens := by
  obtain ⟨before, first, after, rfl, _, hopen, _⟩ := h
  exact ⟨first, List.mem_append_left _ hopen.mem⟩

end Token

namespace Document

variable {error? : Option SyntaxError} {span span' : Span} {fault fault' : ParseFault}

theorem EndsAt.unique (h : EndsAt source tokens span) (h' : EndsAt source tokens span') :
    span = span' := by
  cases h with
  | subset hopen =>
      cases h' with
      | subset hopen' => exact hopen.unique hopen'
      | source hnone => exact absurd hopen (hnone _)
  | source hnone =>
      cases h' with
      | subset hopen' => exact absurd hopen' (hnone _)
      | source => rfl

/-- A text has one fault at most. -/
theorem FaultAt.unique (h : FaultAt source tokens error? span fault)
    (h' : FaultAt source tokens error? span' fault') : span = span' ∧ fault = fault' := by
  cases h with
  | mismatched hfirst =>
      cases h' with
      | mismatched hfirst' =>
          obtain ⟨rfl, rfl, rfl⟩ := hfirst.unique hfirst'
          exact ⟨rfl, rfl⟩
      | unclosed hmatch | badSyntax hmatch => exact absurd hmatch hfirst.not_closingTagsMatch
      | unexpectedEnd hnone =>
          obtain ⟨first, hmem⟩ := hfirst.exists_tagStart
          exact absurd hmem (hnone first _)
  | unclosed hmatch hopen =>
      cases h' with
      | mismatched hfirst' => exact absurd hmatch hfirst'.not_closingTagsMatch
      | unclosed _ hopen' =>
          obtain ⟨rfl, rfl⟩ := hopen.unique hopen'
          exact ⟨rfl, rfl⟩
      | unexpectedEnd hnone => exact absurd hopen.mem (hnone _ _)
  | unexpectedEnd hnone hend =>
      cases h' with
      | mismatched hfirst' =>
          obtain ⟨first, hmem⟩ := hfirst'.exists_tagStart
          exact absurd hmem (hnone first _)
      | unclosed _ hopen' => exact absurd hopen'.mem (hnone _ _)
      | unexpectedEnd _ hend' => exact ⟨hend.unique hend', rfl⟩
  | badSyntax hmatch hend =>
      cases h' with
      | mismatched hfirst' => exact absurd hmatch hfirst'.not_closingTagsMatch
      | badSyntax _ hend' => exact ⟨hend.unique hend', rfl⟩

end Document

/-! ## Along a derivation -/

theorem Token.paired_attributes (attributes : List Attribute) :
    Token.Paired (attributes.map .tagAttribute) := by
  refine paired_of_isPlain fun token htoken => ?_
  obtain ⟨attr, _, rfl⟩ := List.mem_map.mp htoken
  rfl

/-- What follows a start tag, up to a place where nothing is open that was opened there. -/
theorem Token.Paired.behind_tagStart {content : List Token} (h : Paired content)
    (attributes : List Attribute) (tagEnd : Span) :
    Paired (attributes.map .tagAttribute ++ .tagEnd tagEnd :: content) :=
  (paired_attributes attributes).append (.plain rfl h)

mutual

theorem ElementTokens.paired {tokens : List Token} {node : Node}
    (h : ElementTokens source options tokens node) : Token.Paired tokens :=
  match h with
  | .empty first name attributes last =>
      .element first name (Token.paired_attributes attributes) rfl .nil
  | @ElementTokens.closed _ _ first name attributes tagEnd content children last closing
      hname hcontent => by
      have hinner := hcontent.paired.behind_tagStart attributes tagEnd
      have hlast : (Token.closeTag last closing).closesElement = true := rfl
      simpa using Token.Paired.element first name hinner hlast .nil

theorem ContentTokens.paired {tokens : List Token} {nodes : List Node}
    (h : ContentTokens source options tokens nodes) : Token.Paired tokens :=
  match h with
  | .nil => .nil
  | .element helement hrest => helement.paired.append hrest.paired
  | .text _ hrest | .blank _ hrest | .cdata _ _ hrest | .comment _ _ hrest
  | .instruction _ _ _ hrest => .plain rfl hrest.paired

end

theorem ElementTokens.exists_tagStart (h : ElementTokens source options tokens node) :
    ∃ first name, .tagStart first name ∈ tokens := by
  cases h with
  | empty first name | closed first name => exact ⟨first, name, List.mem_cons_self⟩

/-- The tokens around the root element open and close no elements. -/
theorem PrologTokens.nest_eq (h : PrologTokens source tokens nodes) :
    ∀ token ∈ tokens, ∀ opened, Token.nest opened token = opened := by
  induction h with
  | nil => simp
  | subset first last _ hinner ih =>
      intro token htoken opened
      rcases List.mem_append.mp htoken with htoken | htoken
      · exact ih token htoken opened
      · rcases List.mem_cons.mp htoken with rfl | htoken
        · rfl
        rcases List.mem_append.mp htoken with htoken | htoken
        · cases token with
          | entity | comment | instruction => rfl
          | _ => cases hinner _ htoken
        · rw [List.mem_singleton.mp htoken]
          rfl
  | _ =>
      rename_i ih
      exact List.forall_mem_append.mpr ⟨ih, fun token htoken _ => by
        rw [List.mem_singleton.mp htoken]
        rfl⟩

theorem EpilogTokens.nest_eq (h : EpilogTokens tokens nodes) :
    ∀ token ∈ tokens, ∀ opened, Token.nest opened token = opened := by
  induction h with
  | nil => simp
  | _ =>
      rename_i ih
      exact List.forall_mem_append.mpr ⟨ih, fun token htoken _ => by
        rw [List.mem_singleton.mp htoken]
        rfl⟩

theorem PrologTokens.tagStart_notMem (h : PrologTokens source tokens nodes) :
    .tagStart first name ∉ tokens :=
  fun hmem => nomatch h.nest_eq _ hmem []

theorem PrologTokens.not_endsInSubset (h : PrologTokens source tokens nodes) :
    ¬ Token.EndsInSubset tokens opening := by
  induction h with
  | nil =>
      rintro ⟨before, inner, hsplit, _⟩
      simp at hsplit
  | comment | instruction =>
      rename_i ih
      exact Token.not_endsInSubset_concat (fun _ => Token.noConfusion) fun _ => ih
  | declaration | doctype | blank =>
      exact Token.not_endsInSubset_concat (fun _ => Token.noConfusion) fun h => nomatch h
  | @subset before inner nodes first last =>
      have hlast : ¬ Token.EndsInSubset ((before ++ .subsetOpen first :: inner) ++
          [.subsetClose last]) opening :=
        Token.not_endsInSubset_concat (fun _ => Token.noConfusion) fun h => nomatch h
      simpa using hlast

theorem EpilogTokens.not_endsInSubset (h : EpilogTokens tokens nodes)
    (hfront : ¬ Token.EndsInSubset front opening) :
    ¬ Token.EndsInSubset (front ++ tokens) opening := by
  induction h with
  | nil => simpa using hfront
  | comment | instruction =>
      rename_i ih
      rw [← List.append_assoc]
      exact Token.not_endsInSubset_concat (fun _ => Token.noConfusion) fun _ => ih
  | blank =>
      rw [← List.append_assoc]
      exact Token.not_endsInSubset_concat (fun _ => Token.noConfusion) fun h => nomatch h

theorem DocumentTokens.exists_tagStart (h : DocumentTokens source options tokens nodes) :
    ∃ first name, .tagStart first name ∈ tokens := by
  cases h with
  | intro _ hroot _ =>
      obtain ⟨first, name, hmem⟩ := hroot.exists_tagStart
      exact ⟨first, name, by simp [hmem]⟩

theorem DocumentTokens.not_endsInSubset (h : DocumentTokens source options tokens nodes) :
    ¬ Token.EndsInSubset tokens opening := by
  cases h with
  | intro hprolog hroot hepilog =>
      obtain ⟨first, name, hmem⟩ := hroot.exists_tagStart
      exact hepilog.not_endsInSubset
        (Token.not_endsInSubset_of_tagStart hmem hroot.paired.subsetOpen_notMem)

theorem Token.foldl_nest_of_nest_eq (h : ∀ token ∈ tokens, ∀ opened, nest opened token = opened)
    (opened : List (Span × Name)) : tokens.foldl nest opened = opened := by
  induction tokens with
  | nil => rfl
  | cons token tokens ih =>
      obtain ⟨htoken, hrest⟩ := List.forall_mem_cons.mp h
      rw [List.foldl_cons, htoken, ih hrest]

/-- Behind a document nothing is open. -/
theorem DocumentTokens.not_innermostOpen (h : DocumentTokens source options tokens nodes) :
    ¬ Token.InnermostOpen tokens first name := by
  cases h with
  | intro hprolog hroot hepilog =>
      intro hopen
      have hhead := hopen.head?_foldl_nest
      rw [List.foldl_append, List.foldl_append, Token.foldl_nest_of_nest_eq hprolog.nest_eq,
        hroot.paired.foldl_nest, Token.foldl_nest_of_nest_eq hepilog.nest_eq] at hhead
      cases hhead

/-! ## Where reading fails -/

theorem Token.OpensLast.innermostOpen (h : OpensLast source options tokens first name) :
    InnermostOpen tokens first name := by
  obtain ⟨outer, content, attributes, tagEnd, children, hcontent, rfl⟩ := h
  exact ⟨outer, _, rfl, hcontent.paired.behind_tagStart attributes tagEnd⟩

namespace Builder

variable {builder : Builder} {error : Error} {stop : TokenStream}

/-- Where all tokens are taken, all closing tags match. -/
theorem closingTagsMatch_of_takes (hyields : TokenStream.Yields (.ofSource source) tokens stop)
    (htakes : Takes options { source } tokens builder) : Token.ClosingTagsMatch tokens := by
  rintro before last closing after rfl
  obtain ⟨middle, hbefore, hafter⟩ := takes_append_iff.mp htakes
  obtain ⟨next, htake, _⟩ := takes_cons_iff.mp hafter
  obtain ⟨first, name, hlast, _, hrefused⟩ := closes_of_yields hyields hbefore
  refine ⟨first, name, hlast.innermostOpen, ?_⟩
  cases hname : name == closing with
  | true => rfl
  | false => cases htake.symm.trans (hrefused hname)

/-- The first token that is not taken is a closing tag that does not match. -/
theorem faultAt_of_not_taken (hyields : TokenStream.Yields (.ofSource source) tokens stop)
    (h : tokens.foldlM (take options) { source } = .error error) (error? : Option SyntaxError) :
    ∃ span fault, error = .located source span (.parse fault) ∧
      Document.FaultAt source tokens error? span fault := by
  have houtcome : Outcome source (stop.region, stop.depth)
      (tokens.foldlM (take options) { source }) := outcome_of_ofSource hyields
  rw [h] at houtcome
  obtain ⟨before, token, after, middle, rfl, htakes, htake⟩ := exists_not_taken h
  cases houtcome with
  | mismatched span expected found =>
      obtain ⟨fault, hlocated, hmay⟩ := failsWith_take options middle token _ htake
      obtain ⟨closing, htoken⟩ : ∃ closing, token = .closeTag token.span closing := by
        refine hmay expected found ?_
        injection hlocated with hkind _
        injection hkind with hfault
        exact hfault.symm
      rw [htoken] at hyields htake
      obtain ⟨first, name, hlast, htaken, hrefused⟩ := closes_of_yields hyields htakes
      cases hname : name == closing with
      | true =>
          obtain ⟨next, hnext⟩ := htaken hname
          cases htake.symm.trans hnext
      | false =>
          obtain ⟨_, hbefore, _⟩ := TokenStream.yields_append_iff.mp hyields
          rw [htoken]
          exact ⟨_, _, Except.error.inj (htake.symm.trans (hrefused hname)), .mismatched ⟨before,
            first, after, rfl, closingTagsMatch_of_takes hbefore htakes, hlast.innermostOpen,
            hname⟩⟩

/-- Where an element is open at the end, it is the innermost one. -/
theorem faultAt_of_innermostOpen {opened : OpenElement} {outer : List OpenElement}
    {children : Array Node} {stage : Stage} {error? : Option SyntaxError}
    (hmatch : Token.ClosingTagsMatch tokens)
    (hopen : Token.InnermostOpen tokens opened.span opened.name)
    (hstage : ∀ opening, stage ≠ .subset opening)
    (hfinish : finish ⟨source, ⟨children, opened :: outer⟩, stage⟩ error? = .error error) :
    ∃ span fault, error = .located source span (.parse fault) ∧
      Document.FaultAt source tokens error? span fault := by
  cases error? with
  | none => exact ⟨_, _, (Except.error.inj hfinish).symm, .unclosed hmatch hopen⟩
  | some cause =>
      refine ⟨.endOf source, .badSyntax cause, ?_,
        .badSyntax hmatch (.source fun _ => hopen.not_endsInSubset)⟩
      cases stage with
      | subset opening => exact absurd rfl (hstage opening)
      | _ => exact (Except.error.inj hfinish).symm

/-- Behind all tokens, the fault is what is missing there, or the syntax error. -/
theorem faultAt_of_finish {error? : Option SyntaxError}
    (h : Reached source options tokens builder) (hmatch : Token.ClosingTagsMatch tokens)
    (hfinish : builder.finish error? = .error error) :
    ∃ span fault, error = .located source span (.parse fault) ∧
      Document.FaultAt source tokens error? span fault := by
  cases h with
  | prolog hprolog =>
      have hend : Document.EndsAt source tokens (.endOf source) :=
        .source fun _ => hprolog.not_endsInSubset
      cases error? with
      | none =>
          exact ⟨_, _, (Except.error.inj hfinish).symm,
            .unexpectedEnd (fun _ _ => hprolog.tagStart_notMem) hend⟩
      | some cause =>
          exact ⟨_, _, (Except.error.inj hfinish).symm, .badSyntax hmatch hend⟩
  | @subset before inner nodes first hbefore hinner =>
      have hend : Document.EndsAt source (before ++ .subsetOpen first :: inner) first :=
        .subset ⟨before, inner, rfl, hinner⟩
      have hnone (start : Span) (name : Name) :
          .tagStart start name ∉ before ++ .subsetOpen first :: inner := by
        rw [List.mem_append, List.mem_cons, not_or, not_or]
        exact ⟨hbefore.tagStart_notMem, Token.noConfusion, fun hmem => nomatch hinner _ hmem⟩
      cases error? with
      | none => exact ⟨_, _, (Except.error.inj hfinish).symm, .unexpectedEnd hnone hend⟩
      | some cause =>
          exact ⟨_, _, (Except.error.inj hfinish).symm, .badSyntax hmatch hend⟩
  | tag first name attributes houter =>
      exact faultAt_of_innermostOpen hmatch
        ⟨_, _, rfl, Token.paired_attributes attributes⟩ (fun _ => Stage.noConfusion) hfinish
  | content houter hopened =>
      cases houter with
      | prolog => exact absurd rfl hopened
      | inside first name attributes tagEnd houter hcontent =>
          have hinner := hcontent.paired.behind_tagStart attributes tagEnd
          exact faultAt_of_innermostOpen hmatch ⟨_, _, rfl, hinner⟩
            (fun _ => Stage.noConfusion) hfinish
  | epilog hdocument =>
      cases error? with
      | none => cases hfinish
      | some cause =>
          exact ⟨_, _, (Except.error.inj hfinish).symm,
            .badSyntax hmatch (.source fun _ => hdocument.not_endsInSubset)⟩

end Builder

namespace Document

variable {error : Error} {error? : Option SyntaxError} {document : Document}

theorem faultAt_of_parse (htokens : Token.ofSource source = (tokens, error?))
    (h : Document.parse source options = .error error) :
    ∃ span fault, error = .located source span (.parse fault) ∧
      FaultAt source tokens error? span fault := by
  obtain ⟨stop, _, hyields, _⟩ := TokenStream.tokens_eq_iff.mp htokens
  rcases parse_cases htokens options with
    ⟨found, htakes, hparse⟩ | ⟨builder, htakes, hreached, hparse⟩
  · obtain rfl := Except.error.inj (h.symm.trans hparse)
    exact Builder.faultAt_of_not_taken hyields htakes error?
  · exact Builder.faultAt_of_finish hreached (Builder.closingTagsMatch_of_takes hyields htakes)
      (hparse.symm.trans h)

/-- A text that is a document has no fault. -/
theorem not_faultAt_of_parse (htokens : Token.ofSource source = (tokens, error?))
    (h : Document.parse source options = .ok document) {span : Span} {fault : ParseFault} :
    ¬ FaultAt source tokens error? span fault := by
  obtain ⟨tokens, hsame, _, hdocument⟩ := documentTokens_of_parse h
  cases htokens.symm.trans hsame
  intro hfault
  cases hfault with
  | mismatched hfirst =>
      refine hfirst.not_closingTagsMatch ?_
      obtain ⟨stop, _, hyields, _⟩ := TokenStream.tokens_eq_iff.mp htokens
      rcases parse_cases htokens options with ⟨_, _, hparse⟩ | ⟨builder, htakes, _⟩
      · cases h.symm.trans hparse
      · exact Builder.closingTagsMatch_of_takes hyields htakes
  | unclosed _ hopen => exact hdocument.not_innermostOpen hopen
  | unexpectedEnd hnone =>
      obtain ⟨first, name, hmem⟩ := hdocument.exists_tagStart
      exact hnone first name hmem

/-- Reading a text fails exactly if it has a fault, and the error is this fault, at its
place.  The tokens that this is about are what the text is spelled with: their spans are
slices of it that follow one another, and the parts of a tag are what it holds. -/
theorem parse_eq_error_iff_faultAt (source : Text) (options : ParseOptions) :
    (∀ error, Document.parse source options = .error error ↔
      ∃ span fault, error = .located source span (.parse fault) ∧
        FaultAt source (Token.ofSource source).1 (Token.ofSource source).2 span fault) ∧
    Token.Placed source (Token.ofSource source).1 ∧
      ∀ token ∈ (Token.ofSource source).1, token.Spelled := by
  have htokens := (Prod.eta (Token.ofSource source)).symm
  refine ⟨fun error => ⟨faultAt_of_parse htokens, ?_⟩, Token.placed_of_ofSource htokens⟩
  rintro ⟨span, fault, rfl, hfault⟩
  cases hparse : Document.parse source options with
  | ok document => exact absurd hfault (not_faultAt_of_parse htokens hparse)
  | error error =>
      obtain ⟨span', fault', rfl, hfault'⟩ := faultAt_of_parse htokens hparse
      obtain ⟨rfl, rfl⟩ := hfault.unique hfault'
      rfl

/-- In `<a><b></c></b></a` two closing tags do not match, and the last one is broken off; the
fault is at the first one. -/
example : (match Document.parse "<a><b></c></b></a".toList with
    | .error error => error.kind == .parse (.mismatchedTag "b" "c")
    | .ok _ => false) = true := by
  decide +kernel

end Document

end XmlOutline
