import XmlOutline.Proofs.Derivation.Completeness

/-!
# What is accepted is derived

What the builder has read at any moment is the beginning of a derivation.  Around
the place it has reached there are the elements that are still open; each of them
has its start tag behind it and some content (`OpenTokens`).  In which rule the
place itself lies, the stage tells (`Reached`).

Every token that is taken extends the derivation (`reached_of_take`), and where the
builder finishes, nothing is open, so the derivation is one of a document.
-/

namespace XmlOutline

/-! ## Longer content -/

theorem ContentTokens.append {source : Text} {options : ParseOptions}
    {first second : List Token} {nodes nodes' : List Node}
    (hfirst : ContentTokens source options first nodes)
    (hsecond : ContentTokens source options second nodes') :
    ContentTokens source options (first ++ second) (nodes ++ nodes') :=
  match hfirst with
  | .nil => hsecond
  | .element helement hrest => by
      rw [List.append_assoc]
      exact .element helement (hrest.append hsecond)
  | .text hkeeps hrest => .text hkeeps (hrest.append hsecond)
  | .blank hblank hrest => .blank hblank (hrest.append hsecond)
  | .cdata span content hrest => .cdata span content (hrest.append hsecond)
  | .comment span content hrest => .comment span content (hrest.append hsecond)
  | .instruction span target content hrest =>
      .instruction span target content (hrest.append hsecond)

/-! ## The beginning of a derivation -/

/-- What was read up to a place where an element may start, with the elements that
are open there. -/
inductive OpenTokens (source : Text) (options : ParseOptions) : List Token → Draft → Prop where
  | prolog {tokens : List Token} {nodes : List Node} (hprolog : PrologTokens source tokens nodes) :
      OpenTokens source options tokens ⟨nodes.toArray, []⟩
  | inside {before content : List Token} {draft : Draft} {children : List Node} (first : Span)
      (name : Name) (attributes : List Attribute) (tagEnd : Span)
      (houter : OpenTokens source options before draft)
      (hcontent : ContentTokens source options content children) :
      OpenTokens source options
        (before ++ (.tagStart first name :: (attributes.map .tagAttribute ++
          .tagEnd tagEnd :: content)))
        (draft.openElement ⟨first, name, attributes.toArray, children.toArray⟩)

namespace Builder

/-- What was read when the builder got to where it is. -/
inductive Reached (source : Text) (options : ParseOptions) : List Token → Builder → Prop where
  | prolog {tokens : List Token} {nodes : List Node} (hprolog : PrologTokens source tokens nodes) :
      Reached source options tokens ⟨source, ⟨nodes.toArray, []⟩, .prolog⟩
  | subset {before inner : List Token} {nodes : List Node} (first : Span)
      (hbefore : PrologTokens source before nodes)
      (hinner : ∀ token ∈ inner, token.isIgnoredInSubset = true) :
      Reached source options (before ++ .subsetOpen first :: inner)
        ⟨source, ⟨nodes.toArray, []⟩, .subset first⟩
  | tag {before : List Token} {draft : Draft} (first : Span) (name : Name)
      (attributes : List Attribute) (houter : OpenTokens source options before draft) :
      Reached source options (before ++ .tagStart first name :: attributes.map .tagAttribute)
        ⟨source, draft.openElement ⟨first, name, attributes.toArray, #[]⟩, .tag⟩
  | content {tokens : List Token} {draft : Draft} (houter : OpenTokens source options tokens draft)
      (hopened : draft.opened ≠ []) :
      Reached source options tokens ⟨source, draft, .content⟩
  | epilog {tokens : List Token} {nodes : List Node}
      (hdocument : DocumentTokens source options tokens nodes) :
      Reached source options tokens ⟨source, ⟨nodes.toArray, []⟩, .epilog⟩

variable {source : Text} {options : ParseOptions} {tokens before content : List Token}
  {token : Token} {draft : Draft} {builder next : Builder} {nodes : List Node} {node : Node}

/-- Content goes to the innermost element that is open. -/
theorem reached_of_contentTokens (houter : OpenTokens source options before draft)
    (hopened : draft.opened ≠ []) (hcontent : ContentTokens source options content nodes) :
    Reached source options (before ++ content) ⟨source, nodes.foldl Draft.add draft, .content⟩ := by
  cases houter with
  | prolog => exact absurd rfl hopened
  | inside first name attributes tagEnd houter hbefore =>
      have hwhole := houter.inside first name attributes tagEnd (hbefore.append hcontent)
      rw [Draft.foldl_add_openElement, List.append_toArray]
      refine .content ?_ (List.cons_ne_nil _ _)
      simpa using hwhole

/-- A finished element goes to the innermost element that is open, or it is the
root. -/
theorem reached_of_elementTokens (houter : OpenTokens source options before draft)
    (helement : ElementTokens source options content node) :
    Reached source options (before ++ content) ⟨source, draft.add node, stageBehind draft⟩ := by
  cases houter with
  | @prolog _ nodes hprolog =>
      have hdocument := DocumentTokens.intro hprolog helement .nil
      rw [Draft.add_top]
      refine .epilog ?_
      simpa using hdocument
  | inside first name attributes tagEnd houter hbefore =>
      have hcontent : ContentTokens source options content [node] := by
        have hsingle := ContentTokens.element helement .nil
        simpa using hsingle
      exact reached_of_contentTokens (houter.inside first name attributes tagEnd hbefore)
        (List.cons_ne_nil _ _) hcontent

/-! ## One token in each stage -/

private theorem not_refused {found : Builder} {error : Error}
    (htake : (Except.error error : Except Error Builder) = .ok found) : False :=
  nomatch htake

/-- A node before the root element goes to the top level. -/
private theorem reached_add (hprolog : PrologTokens source tokens (nodes ++ [node])) :
    Reached source options tokens ⟨source, (⟨nodes.toArray, []⟩ : Draft).add node, .prolog⟩ := by
  rw [Draft.add_top]
  exact .prolog hprolog

theorem reached_of_takeInProlog (hprolog : PrologTokens source tokens nodes)
    (htake : takeInProlog ⟨source, ⟨nodes.toArray, []⟩, .prolog⟩ token = .ok next) :
    Reached source options (tokens ++ [token]) next := by
  cases token with
  | tagStart span name =>
      obtain rfl := Except.ok.inj htake
      exact .tag span name [] (.prolog hprolog)
  | declaration span =>
      cases nodes with
      | nil =>
          obtain rfl := Except.ok.inj htake
          exact .prolog (.declaration span hprolog)
      | cons node nodes => exact (not_refused htake).elim
  | comment span content =>
      obtain rfl := Except.ok.inj htake
      exact reached_add (.comment span content hprolog)
  | instruction span target content =>
      obtain rfl := Except.ok.inj htake
      exact reached_add (.instruction span target content hprolog)
  | doctype span =>
      obtain rfl := Except.ok.inj htake
      exact reached_add (.doctype span hprolog)
  | subsetOpen span =>
      obtain rfl := Except.ok.inj htake
      exact .subset span hprolog (by simp)
  | text run =>
      cases hblank : Text.isBlank run.text with
      | true =>
          simp only [takeInProlog, hblank, if_true] at htake
          obtain rfl := Except.ok.inj htake
          exact .prolog (.blank hprolog hblank)
      | false =>
          simp only [takeInProlog, hblank] at htake
          exact (not_refused htake).elim
  | _ => exact (not_refused htake).elim

theorem reached_of_takeInSubset {first : Span} {inner : List Token}
    (hbefore : PrologTokens source before nodes)
    (hinner : ∀ token ∈ inner, token.isIgnoredInSubset = true)
    (hplaced : Token.Placed source (before ++ .subsetOpen first :: inner ++ [token]))
    (htake : takeInSubset ⟨source, ⟨nodes.toArray, []⟩, .subset first⟩ first token = .ok next) :
    Reached source options (before ++ .subsetOpen first :: inner ++ [token]) next := by
  have hignored (hignored : token.isIgnoredInSubset = true)
      (hsame : next = ⟨source, ⟨nodes.toArray, []⟩, .subset first⟩) :
      Reached source options (before ++ .subsetOpen first :: inner ++ [token]) next := by
    have hreached : Reached source options (before ++ .subsetOpen first :: (inner ++ [token]))
        ⟨source, ⟨nodes.toArray, []⟩, .subset first⟩ := by
      refine .subset first hbefore fun other hother => ?_
      rcases List.mem_append.mp hother with hother | hother
      · exact hinner other hother
      · rw [List.mem_singleton.mp hother]
        exact hignored
    rw [hsame]
    simpa using hreached
  cases token with
  | subsetClose last =>
      have hends : Token.Placed source [.subsetOpen first, .subsetClose last] :=
        hplaced.pair (by simp)
      have hhull := hends.hull?_eq
      simp only [Token.span] at hhull
      simp only [takeInSubset, hull, hhull] at htake
      obtain rfl := Except.ok.inj htake
      rw [List.append_assoc]
      exact reached_add (.subset first last hbefore hinner)
  | entity span => exact hignored rfl (Except.ok.inj htake).symm
  | comment span content => exact hignored rfl (Except.ok.inj htake).symm
  | instruction span target content => exact hignored rfl (Except.ok.inj htake).symm
  | _ => exact (not_refused htake).elim

theorem reached_of_takeInTag {first : Span} {name : Name} {attributes : List Attribute}
    (houter : OpenTokens source options before draft)
    (hplaced : Token.Placed source
      (before ++ .tagStart first name :: attributes.map .tagAttribute ++ [token]))
    (htake : takeInTag
      ⟨source, draft.openElement ⟨first, name, attributes.toArray, #[]⟩, .tag⟩ token = .ok next) :
    Reached source options
      (before ++ .tagStart first name :: attributes.map .tagAttribute ++ [token]) next := by
  cases token with
  | tagAttribute attr =>
      obtain rfl := Except.ok.inj htake
      have hlonger := Reached.tag first name (attributes ++ [attr]) houter
      simpa [Draft.openElement] using hlonger
  | tagEnd span =>
      obtain rfl := Except.ok.inj htake
      refine .content ?_ (List.cons_ne_nil _ _)
      have hinside := houter.inside first name attributes span .nil
      simpa using hinside
  | emptyTagEnd last =>
      have hends : Token.Placed source [.tagStart first name, .emptyTagEnd last] :=
        hplaced.pair (by simp)
      have hclose : closeElement
          ⟨source, draft.openElement ⟨first, name, attributes.toArray, #[]⟩, .tag⟩ last none =
            .ok next := htake
      obtain ⟨_, whole, hhull, rfl⟩ := closeElement_eq_ok_iff.mp hclose
      obtain rfl := Option.some.inj (hhull.symm.trans hends.hull?_eq)
      have hreached := reached_of_elementTokens houter
        (.empty first name attributes last)
      simpa [OpenElement.toNode, Token.span] using hreached
  | _ => exact (not_refused htake).elim

theorem reached_of_takeInContent (houter : OpenTokens source options tokens draft)
    (hopened : draft.opened ≠ []) (hplaced : Token.Placed source (tokens ++ [token]))
    (htake : take options ⟨source, draft, .content⟩ token = .ok next) :
    Reached source options (tokens ++ [token]) next := by
  have hadd {node : Node} (hsingle : ContentTokens source options [token] [node])
      (htake : addInside ⟨source, draft, .content⟩ token node = .ok next) :
      Reached source options (tokens ++ [token]) next := by
    rw [addInside_eq hopened] at htake
    obtain rfl := Except.ok.inj htake
    exact reached_of_contentTokens houter hopened hsingle
  cases token with
  | tagStart span name =>
      obtain rfl := Except.ok.inj htake
      exact .tag span name [] houter
  -- whether the run is kept decides between two rules of the content
  | text run =>
      rw [take_text_eq] at htake
      by_cases hkeeps : options.Keeps run
      · rw [if_pos hkeeps] at htake
        exact hadd (.text hkeeps .nil) htake
      · rw [if_neg hkeeps] at htake
        obtain rfl := Except.ok.inj htake
        exact reached_of_contentTokens houter hopened (.blank hkeeps .nil)
  | cdata span content => exact hadd (.cdata span content .nil) htake
  | comment span content => exact hadd (.comment span content .nil) htake
  | instruction span target content =>
      exact hadd (.instruction span target content .nil) htake
  | closeTag last closing =>
      -- the innermost open element is what was derived last, so it is the one closed
      cases houter with
      | prolog => exact absurd rfl hopened
      | @inside before content draft children first name attributes tagEnd houter hcontent =>
          have hends : Token.Placed source [.tagStart first name, .closeTag last closing] :=
            hplaced.pair (by simp)
          have hclose : closeElement
              ⟨source, draft.openElement ⟨first, name, attributes.toArray, children.toArray⟩,
                .content⟩ last (some closing) = .ok next := htake
          obtain ⟨hname, whole, hhull, rfl⟩ := closeElement_eq_ok_iff.mp hclose
          obtain rfl := Option.some.inj (hhull.symm.trans hends.hull?_eq)
          have hreached := reached_of_elementTokens houter
            (.closed first name attributes tagEnd last (hname closing rfl) hcontent)
          simpa [OpenElement.toNode, Token.span] using hreached
  | _ => exact (not_refused htake).elim

theorem reached_of_takeInEpilog (hdocument : DocumentTokens source options tokens nodes)
    (htake : takeInEpilog ⟨source, ⟨nodes.toArray, []⟩, .epilog⟩ token = .ok next) :
    Reached source options (tokens ++ [token]) next := by
  cases hdocument with
  | @intro before middle after nodes later root hprolog hroot hepilog =>
      have hlonger {found : List Node} (hlater : EpilogTokens (after ++ [token]) (later ++ found))
          (hnext : next = ⟨source, found.foldl Draft.add
            ⟨(nodes ++ [root] ++ later).toArray, []⟩, .epilog⟩) :
          Reached source options (before ++ middle ++ after ++ [token]) next := by
        have hwhole := DocumentTokens.intro hprolog hroot hlater
        rw [hnext, Draft.foldl_add_top]
        refine .epilog ?_
        simpa using hwhole
      cases token with
      | comment span content =>
          exact hlonger (.comment span content hepilog) (Except.ok.inj htake).symm
      | instruction span target content =>
          exact hlonger (.instruction span target content hepilog) (Except.ok.inj htake).symm
      | text run =>
          cases hblank : Text.isBlank run.text with
          | true =>
              simp only [takeInEpilog, hblank, if_true] at htake
              have hlater : EpilogTokens (after ++ [.text run]) (later ++ []) := by
                simpa using hepilog.blank hblank
              exact hlonger hlater (Except.ok.inj htake).symm
          | false =>
              simp only [takeInEpilog, hblank] at htake
              exact (not_refused htake).elim
      | _ => exact (not_refused htake).elim

/-! ## All tokens -/

/-- Every token that is taken extends the derivation. -/
theorem reached_of_take (h : Reached source options tokens builder)
    (hplaced : Token.Placed source (tokens ++ [token]))
    (htake : builder.take options token = .ok next) :
    Reached source options (tokens ++ [token]) next := by
  cases h with
  | prolog hprolog => exact reached_of_takeInProlog hprolog htake
  | subset first hbefore hinner => exact reached_of_takeInSubset hbefore hinner hplaced htake
  | tag first name attributes houter => exact reached_of_takeInTag houter hplaced htake
  | content houter hopened => exact reached_of_takeInContent houter hopened hplaced htake
  | epilog hdocument => exact reached_of_takeInEpilog hdocument htake

theorem reached_of_takes {later : List Token} (h : Reached source options tokens builder)
    (hplaced : Token.Placed source (tokens ++ later)) (htakes : Takes options builder later next) :
    Reached source options (tokens ++ later) next := by
  induction later generalizing tokens builder with
  | nil =>
      obtain rfl := takes_nil_iff.mp htakes
      simpa using h
  | cons token later ih =>
      obtain ⟨middle, htake, htakes⟩ := takes_cons_iff.mp htakes
      rw [List.append_cons] at hplaced ⊢
      have htoken : Token.Placed source (tokens ++ [token]) :=
        hplaced.of_sublist (List.sublist_append_left _ _)
      exact ih (reached_of_take h htoken htake) hplaced htakes

/-- Only behind the root element a document can end, and only if there was no error. -/
theorem documentTokens_of_finish {document : Document} {error? : Option SyntaxError}
    (h : Reached source options tokens builder) (hfinish : builder.finish error? = .ok document) :
    error? = none ∧ document.source = source ∧
      DocumentTokens source options tokens document.children := by
  have herror : error? = none := by
    cases error? with
    | none => rfl
    | some error =>
        cases h <;> cases hfinish
  subst herror
  -- in all other stages an element is missing or open
  cases h with
  | prolog => cases hfinish
  | subset => cases hfinish
  | tag => cases hfinish
  | @content tokens draft houter hopened =>
      cases houter with
      | prolog => exact absurd rfl hopened
      | inside => cases hfinish
  | epilog hdocument =>
      obtain rfl := Except.ok.inj hfinish
      exact ⟨rfl, rfl, hdocument⟩

end Builder

/-- Reading ends at the first token that is not taken, or with what has been reached behind
all tokens. -/
theorem Document.parse_cases {source : Text} {tokens : List Token} {error? : Option SyntaxError}
    (htokens : Token.ofSource source = (tokens, error?)) (options : ParseOptions) :
    (∃ error, tokens.foldlM (Builder.take options) { source } = .error error ∧
      Document.parse source options = .error error) ∨
    ∃ builder, Builder.Takes options { source } tokens builder ∧
      Builder.Reached source options tokens builder ∧
      Document.parse source options = builder.finish error? := by
  obtain ⟨hplaced, _⟩ := Token.placed_of_ofSource htokens
  cases htakes : tokens.foldlM (Builder.take options) { source } with
  | error error => exact .inl ⟨error, rfl, parse_of_not_taken htokens htakes⟩
  | ok builder =>
      have hstart : Builder.Reached source options [] { source } := .prolog .nil
      exact .inr ⟨builder, htakes, Builder.reached_of_takes hstart hplaced htakes,
        parse_of_takes htokens htakes⟩

/-- A document is derived from the tokens of its text. -/
theorem Document.documentTokens_of_parse {source : Text} {options : ParseOptions}
    {document : Document} (h : Document.parse source options = .ok document) :
    ∃ tokens, Token.ofSource source = (tokens, none) ∧ document.source = source ∧
      DocumentTokens source options tokens document.children := by
  cases htokens : Token.ofSource source with
  | mk tokens error? =>
      rcases parse_cases htokens options with
        ⟨error, _, hparse⟩ | ⟨builder, _, hreached, hparse⟩
      · cases h.symm.trans hparse
      · obtain ⟨rfl, hsource, hdocument⟩ :=
          Builder.documentTokens_of_finish hreached (hparse.symm.trans h)
        exact ⟨tokens, rfl, hsource, hdocument⟩

/-- A check that something succeeds yields the result. -/
theorem exists_eq_ok_of_isOk {ε α : Type} {result : Except ε α} (h : result.isOk = true) :
    ∃ value, result = .ok value := by
  cases result with
  | ok value => exact ⟨value, rfl⟩
  | error error => cases h

/-- A check that something fails yields the error. -/
theorem exists_eq_error_of_isOk {ε α : Type} {result : Except ε α} (h : result.isOk = false) :
    ∃ error, result = .error error := by
  cases result with
  | ok value => cases h
  | error error => exact ⟨error, rfl⟩

/-! ## The documents are exactly what the grammar derives -/

/-- A text is accepted if and only if all of it can be cut into tokens and the grammar
derives them; the document then holds the nodes that the derivation reads.  The spans
that a derivation puts together do reach from the start of the one token to the end
of the other. -/
theorem Document.parse_eq_ok_iff_documentTokens (source : Text) (options : ParseOptions)
    (document : Document) :
    (Document.parse source options = .ok document ↔
      document.source = source ∧ ∃ tokens, Token.ofSource source = (tokens, none) ∧
        DocumentTokens source options tokens document.children) ∧
    ∀ tokens error? first last, Token.ofSource source = (tokens, error?) →
      [first, last].Sublist tokens →
      (Span.through source first.span last.span).IsSliceOf source ∧
        (Span.through source first.span last.span).start = first.span.start ∧
        (Span.through source first.span last.span).stop = last.span.stop := by
  refine ⟨⟨?_, ?_⟩, ?_⟩
  · intro h
    obtain ⟨tokens, htokens, hsource, hdocument⟩ := Document.documentTokens_of_parse h
    exact ⟨hsource, tokens, htokens, hdocument⟩
  · intro h
    obtain ⟨rfl, tokens, htokens, hdocument⟩ := h
    exact Document.parse_of_documentTokens htokens hdocument
  · intro tokens error? first last htokens hpair
    obtain ⟨hplaced, _⟩ := Token.placed_of_ofSource htokens
    obtain ⟨hslice, hstop⟩ := (hplaced.of_sublist hpair).through
    exact ⟨hslice, rfl, hstop⟩

end XmlOutline
