import XmlOutline.Proofs.Derivation.Rules
import XmlOutline.Proofs.Reading.Run

/-!
# What is derived is accepted

The builder takes the tokens of a derivation one by one, and comes out with the
nodes that they are read as.  For an element (`takes_of_elementTokens`) this is
shown on any draft: the stack of open elements is left as it was, and the element
is added to whatever was innermost.  So the statement carries over to an element
inside an element, and the proof follows the rules.

The builder never fails to find the span of an element, because the tokens of a
source are slices of it that follow one another (`Token.Placed`).
-/

namespace XmlOutline

/-- What holds of all tokens in a row holds of some of them. -/
theorem Token.Placed.of_sublist {source : Text} {tokens some : List Token}
    (h : Token.Placed source tokens) (hsome : some.Sublist tokens) :
    Token.Placed source some where
  isSliceOf token htoken := h.isSliceOf token (hsome.subset htoken)
  inOrder := h.inOrder.sublist hsome

/-- The last token comes after each of the others. -/
theorem Token.Placed.pair {source : Text} {tokens : List Token} {first last : Token}
    (h : Token.Placed source (tokens ++ [last])) (hfirst : first ∈ tokens) :
    Token.Placed source [first, last] := by
  have hpair : ([first] ++ [last]).Sublist (tokens ++ [last]) :=
    (List.singleton_sublist.mpr hfirst).append (.refl _)
  exact h.of_sublist hpair

/-- Of two tokens in a row, the second starts where the first one ends, or behind. -/
theorem Token.Placed.stop_le_start {source : Text} {first last : Token}
    (h : Token.Placed source [first, last]) : first.span.stop ≤ last.span.start := by
  have hpairs := h.inOrder
  simpa using hpairs

/-- Two tokens in a row have a span that covers both. -/
theorem Token.Placed.hull?_eq {source : Text} {first last : Token}
    (h : Token.Placed source [first, last]) :
    Span.hull? source first.span last.span = .some (.through source first.span last.span) :=
  Span.hull?_of_le (h.isSliceOf first (by simp)) (h.isSliceOf last (by simp))
    h.stop_le_start

/-- The span that covers two tokens in a row is a piece of source and ends with the
second. -/
theorem Token.Placed.through {source : Text} {first last : Token}
    (h : Token.Placed source [first, last]) :
    (Span.through source first.span last.span).IsSliceOf source ∧
      (Span.through source first.span last.span).stop = last.span.stop :=
  Span.through_of_le (h.isSliceOf first (by simp)) (h.isSliceOf last (by simp))
    h.stop_le_start

/-! ## Drafts -/

namespace Draft

variable {draft : Draft} {nodes : List Node}

/-- Where nothing is open, a node goes to the top level. -/
theorem add_top (nodes : List Node) (node : Node) :
    (⟨nodes.toArray, []⟩ : Draft).add node = ⟨(nodes ++ [node]).toArray, []⟩ := by
  unfold add
  simp

theorem opened_add_eq_nil_iff (node : Node) : (draft.add node).opened = [] ↔ draft.opened = [] := by
  unfold add
  cases hopened : draft.opened with
  | nil => simp
  | cons inner outer => simp

/-- Nodes go to the children of the innermost open element, in their order. -/
theorem foldl_add_openElement (opened : OpenElement) :
    nodes.foldl add (draft.openElement opened) =
      draft.openElement { opened with children := opened.children ++ nodes.toArray } := by
  induction nodes generalizing opened with
  | nil => simp
  | cons node nodes ih =>
      have hadd : (draft.openElement opened).add node =
          draft.openElement { opened with children := opened.children.push node } := rfl
      rw [List.foldl_cons, hadd, ih]
      simp

/-- Where nothing is open, nodes go to the top level, in their order. -/
theorem foldl_add_top (before : List Node) :
    nodes.foldl add ⟨before.toArray, []⟩ = ⟨(before ++ nodes).toArray, []⟩ := by
  induction nodes generalizing before with
  | nil => simp
  | cons node nodes ih =>
      rw [List.foldl_cons, add_top, ih]
      simp

end Draft

namespace Builder

/-! ## Tokens in turn -/

/-- The builder takes these tokens one after the other. -/
def Takes (options : ParseOptions) (start : Builder) (tokens : List Token) (stop : Builder) :
    Prop :=
  tokens.foldlM (take options) start = .ok stop

variable {options : ParseOptions} {source : Text} {start next stop : Builder} {draft : Draft}
  {stage : Stage} {tokens : List Token} {token : Token} {nodes : List Node} {node : Node}

theorem takes_nil_iff : Takes options start [] stop ↔ start = stop := by
  unfold Takes
  rw [List.foldlM_nil]
  exact ⟨Except.ok.inj, congrArg Except.ok⟩

theorem takes_cons_iff : Takes options start (token :: tokens) stop ↔
    ∃ next, start.take options token = .ok next ∧ Takes options next tokens stop := by
  unfold Takes
  rw [List.foldlM_cons]
  cases htake : start.take options token with
  | error error => simp [bind, Except.bind]
  | ok next => simp [bind, Except.bind]

theorem takes_append_iff {first second : List Token} :
    Takes options start (first ++ second) stop ↔
      ∃ middle, Takes options start first middle ∧ Takes options middle second stop := by
  induction first generalizing start with
  | nil => simp [takes_nil_iff]
  | cons token first ih =>
      simp only [List.cons_append, takes_cons_iff, ih]
      constructor
      · intro h
        obtain ⟨next, htake, middle, hfirst, hsecond⟩ := h
        exact ⟨middle, ⟨next, htake, hfirst⟩, hsecond⟩
      · intro h
        obtain ⟨middle, ⟨next, htake, hfirst⟩, hsecond⟩ := h
        exact ⟨next, htake, middle, hfirst, hsecond⟩

theorem takes_singleton_iff : Takes options start [token] stop ↔
    start.take options token = .ok stop := by
  rw [takes_cons_iff]
  simp [takes_nil_iff]

/-! ## Closing -/

/-- Where an element stands once it is closed: behind the root element, or in
another element. -/
def stageBehind (draft : Draft) : Stage :=
  if draft.opened.isEmpty then .epilog else .content

/-- An element is closed by a tag without a name, or with the name of the element. -/
theorem closeElement_eq_ok_iff {opened : OpenElement} {last : Span} {name? : Option Name} :
    closeElement ⟨source, draft.openElement opened, stage⟩ last name? = .ok next ↔
      (∀ name ∈ name?, (opened.name == name) = true) ∧
      ∃ whole, Span.hull? source opened.span last = some whole ∧
        next = ⟨source, draft.add { opened with span := whole }.toNode, stageBehind draft⟩ := by
  unfold closeElement
  simp only [Draft.openElement, hull, stageBehind]
  cases hhull : Span.hull? source opened.span last with
  | none =>
      cases name? with
      | none => simp [bind, Except.bind, fail]
      | some name =>
          cases hname : opened.name == name with
          | false => simp [bind, Except.bind, fail, hname]
          | true => simp [bind, Except.bind, fail, hname]
  | some whole =>
      cases name? with
      | none => simpa [bind, Except.bind, pure, Except.pure] using eq_comm
      | some name =>
          cases hname : opened.name == name with
          | false => simp [bind, Except.bind, fail, hname]
          | true => simpa [bind, Except.bind, hname, pure, Except.pure] using eq_comm

/-- A tag with another name closes nothing. -/
theorem closeElement_of_ne {opened : OpenElement} {last : Span} {name : Name}
    (hname : (opened.name == name) = false) :
    closeElement ⟨source, draft.openElement opened, stage⟩ last (some name) =
      .error (.located source last (.parse (.mismatchedTag
        (String.ofList opened.name.display) (String.ofList name.display)))) := by
  simp [closeElement, Draft.openElement, hname, fail, bind, Except.bind]

/-! ## Along a derivation -/

theorem takes_attributes (opened : OpenElement) (attributes : List Attribute) :
    Takes options ⟨source, draft.openElement opened, .tag⟩ (attributes.map .tagAttribute)
      ⟨source, draft.openElement
        { opened with attributes := opened.attributes ++ attributes.toArray }, .tag⟩ := by
  induction attributes generalizing opened with
  | nil => simp [takes_nil_iff]
  | cons attr attributes ih =>
      refine takes_cons_iff.mpr ⟨⟨source, draft.openElement
        { opened with attributes := opened.attributes.push attr }, .tag⟩, rfl, ?_⟩
      have hrest := ih { opened with attributes := opened.attributes.push attr }
      simpa using hrest

/-- A start tag opens an element with the attributes that it lists. -/
theorem takes_startTag (hstage : stage = .prolog ∨ stage = .content) {first : Span}
    {name : Name} {attributes : List Attribute} :
    Takes options ⟨source, draft, stage⟩
      (.tagStart first name :: attributes.map .tagAttribute)
      ⟨source, draft.openElement ⟨first, name, attributes.toArray, #[]⟩, .tag⟩ := by
  have hopen : take options ⟨source, draft, stage⟩ (.tagStart first name) =
      .ok ⟨source, draft.openElement ⟨first, name, #[], #[]⟩, .tag⟩ := by
    rcases hstage with rfl | rfl <;> rfl
  have hattributes : Takes options
      ⟨source, draft.openElement ⟨first, name, #[], #[]⟩, .tag⟩ (attributes.map .tagAttribute) _ :=
    takes_attributes _ _
  refine takes_cons_iff.mpr ⟨_, hopen, ?_⟩
  simpa using hattributes

/-- Where an element is open, a node goes into it. -/
theorem addInside_eq (hopened : draft.opened ≠ []) (token : Token) (node : Node) :
    addInside ⟨source, draft, stage⟩ token node = .ok ⟨source, draft.add node, stage⟩ := by
  unfold addInside
  rw [if_neg (by simpa using hopened)]
  rfl

/-- In an element a run of text is added or passed over. -/
theorem take_text_eq {run : Span} :
    take options ⟨source, draft, .content⟩ (.text run) =
      if options.Keeps run then addInside ⟨source, draft, .content⟩ (.text run) (.text run run)
      else .ok ⟨source, draft, .content⟩ := by
  have htake : take options ⟨source, draft, .content⟩ (.text run) =
      if (!options.keepWhitespace && Text.isBlank run.text) = true then
        .ok ⟨source, draft, .content⟩
      else addInside ⟨source, draft, .content⟩ (.text run) (.text run run) := rfl
  rw [htake]
  by_cases hkeeps : options.Keeps run
  · rw [if_pos hkeeps, if_neg]
    rcases hkeeps with hkeep | hblank
    · simp [hkeep]
    · simp [hblank]
  · rw [if_neg hkeeps, if_pos]
    simpa [ParseOptions.Keeps] using hkeeps

mutual

/-- Wherever an element may stand, its tokens add the element to the draft. -/
theorem takes_of_elementTokens {tokens : List Token} {node : Node}
    (h : ElementTokens source options tokens node) (hplaced : Token.Placed source tokens)
    (draft : Draft) {stage : Stage} (hstage : stage = .prolog ∨ stage = .content) :
    Takes options ⟨source, draft, stage⟩ tokens ⟨source, draft.add node, stageBehind draft⟩ :=
  match h with
  | .empty first name attributes last => by
      have hends : Token.Placed source [.tagStart first name, .emptyTagEnd last] :=
        hplaced.of_sublist (.cons_cons _ (List.sublist_append_right _ _))
      have hclose : closeElement
          ⟨source, draft.openElement ⟨first, name, attributes.toArray, #[]⟩, .tag⟩ last none =
            .ok ⟨source, draft.add (.element (.through source first last) name attributes []),
              stageBehind draft⟩ :=
        closeElement_eq_ok_iff.mpr ⟨by simp, _, hends.hull?_eq, rfl⟩
      rw [← List.cons_append]
      exact takes_append_iff.mpr ⟨_, takes_startTag hstage, takes_singleton_iff.mpr hclose⟩
  | @ElementTokens.closed _ _ first name attributes tagEnd content children last closing hname
      hcontent => by
      have hends : Token.Placed source [.tagStart first name, .closeTag last closing] := by
        refine hplaced.of_sublist (.cons_cons _ ?_)
        exact .trans (.cons _ (List.sublist_append_right _ _)) (List.sublist_append_right _ _)
      have hinner : Token.Placed source content := by
        refine hplaced.of_sublist (.cons _ ?_)
        exact .trans (.cons _ (List.sublist_append_left _ _)) (List.sublist_append_right _ _)
      have hchildren := takes_of_contentTokens hcontent hinner
        (draft.openElement ⟨first, name, attributes.toArray, #[]⟩) (List.cons_ne_nil _ _)
      rw [Draft.foldl_add_openElement, Array.empty_append] at hchildren
      have hclose : closeElement
          ⟨source, draft.openElement ⟨first, name, attributes.toArray, children.toArray⟩,
            .content⟩ last (some closing) =
            .ok ⟨source, draft.add (.element (.through source first last) name attributes
              children), stageBehind draft⟩ :=
        closeElement_eq_ok_iff.mpr ⟨by simpa using hname, _, hends.hull?_eq, rfl⟩
      rw [← List.cons_append]
      refine takes_append_iff.mpr ⟨_, takes_startTag hstage, takes_cons_iff.mpr ⟨_, rfl, ?_⟩⟩
      exact takes_append_iff.mpr ⟨_, hchildren, takes_singleton_iff.mpr hclose⟩

/-- The tokens of the content of an element add the children to the draft. -/
theorem takes_of_contentTokens {tokens : List Token} {nodes : List Node}
    (h : ContentTokens source options tokens nodes) (hplaced : Token.Placed source tokens)
    (draft : Draft) (hopened : draft.opened ≠ []) :
    Takes options ⟨source, draft, .content⟩ tokens
      ⟨source, nodes.foldl Draft.add draft, .content⟩ :=
  have hadded (node : Node) : (draft.add node).opened ≠ [] :=
    mt (Draft.opened_add_eq_nil_iff node).mp hopened
  match h with
  | .nil => takes_nil_iff.mpr rfl
  | @ContentTokens.element _ _ first rest node nodes hfirst hrest => by
      have htakes := takes_of_elementTokens hfirst
        (hplaced.of_sublist (List.sublist_append_left _ _)) draft (Or.inr rfl)
      have hstage : stageBehind draft = .content := if_neg (by simpa using hopened)
      rw [hstage] at htakes
      exact takes_append_iff.mpr ⟨_, htakes, takes_of_contentTokens hrest
        (hplaced.of_sublist (List.sublist_append_right _ _)) _ (hadded node)⟩
  | @ContentTokens.text _ _ run rest nodes hkeeps hrest => by
      have htake : take options ⟨source, draft, .content⟩ (.text run) =
          .ok ⟨source, draft.add (.text run run), .content⟩ := by
        rw [take_text_eq, if_pos hkeeps, addInside_eq hopened]
      exact takes_cons_iff.mpr ⟨_, htake, takes_of_contentTokens hrest
        (hplaced.of_sublist (List.sublist_cons_self _ _)) _ (hadded _)⟩
  | @ContentTokens.blank _ _ run rest nodes hblank hrest => by
      have htake : take options ⟨source, draft, .content⟩ (.text run) =
          .ok ⟨source, draft, .content⟩ := by
        rw [take_text_eq, if_neg hblank]
      exact takes_cons_iff.mpr ⟨_, htake, takes_of_contentTokens hrest
        (hplaced.of_sublist (List.sublist_cons_self _ _)) _ hopened⟩
  | .cdata span content hrest =>
      takes_cons_iff.mpr ⟨_, addInside_eq hopened _ _, takes_of_contentTokens hrest
        (hplaced.of_sublist (List.sublist_cons_self _ _)) _ (hadded _)⟩
  | .comment span content hrest =>
      takes_cons_iff.mpr ⟨_, addInside_eq hopened _ _, takes_of_contentTokens hrest
        (hplaced.of_sublist (List.sublist_cons_self _ _)) _ (hadded _)⟩
  | .instruction span target content hrest =>
      takes_cons_iff.mpr ⟨_, addInside_eq hopened _ _, takes_of_contentTokens hrest
        (hplaced.of_sublist (List.sublist_cons_self _ _)) _ (hadded _)⟩

end

/-- The tokens in a subset change nothing. -/
theorem takes_inner {opening : Span} (hinner : ∀ token ∈ tokens, token.isIgnoredInSubset = true) :
    Takes options ⟨source, draft, .subset opening⟩ tokens ⟨source, draft, .subset opening⟩ := by
  induction tokens with
  | nil => exact takes_nil_iff.mpr rfl
  | cons token tokens ih =>
      have htake : take options ⟨source, draft, .subset opening⟩ token =
          .ok ⟨source, draft, .subset opening⟩ := by
        have htoken := hinner token (by simp)
        cases token with
        | entity span => rfl
        | comment span content => rfl
        | instruction span target content => rfl
        | _ => simp [Token.isIgnoredInSubset] at htoken
      exact takes_cons_iff.mpr ⟨_, htake, ih fun other hother => hinner other (by simp [hother])⟩

theorem takes_of_prologTokens (h : PrologTokens source tokens nodes)
    (hplaced : Token.Placed source tokens) :
    Takes options { source } tokens ⟨source, ⟨nodes.toArray, []⟩, .prolog⟩ := by
  -- by induction over the rules, each of which goes on behind some tokens
  have hstep {before : List Token} {nodes nodes' : List Node} {token : Token}
      (hbefore : Takes options { source } before ⟨source, ⟨nodes.toArray, []⟩, .prolog⟩)
      (htake : takeInProlog ⟨source, ⟨nodes.toArray, []⟩, .prolog⟩ token =
        .ok ⟨source, ⟨nodes'.toArray, []⟩, .prolog⟩) :
      Takes options { source } (before ++ [token]) ⟨source, ⟨nodes'.toArray, []⟩, .prolog⟩ :=
    takes_append_iff.mpr ⟨_, hbefore, takes_singleton_iff.mpr htake⟩
  induction h with
  | nil => exact takes_nil_iff.mpr rfl
  | declaration span _ ih =>
      exact hstep (ih (hplaced.of_sublist (List.sublist_append_left _ _))) rfl
  | comment span content _ ih =>
      refine hstep (ih (hplaced.of_sublist (List.sublist_append_left _ _))) ?_
      rw [← Draft.add_top]
      rfl
  | instruction span target content _ ih =>
      refine hstep (ih (hplaced.of_sublist (List.sublist_append_left _ _))) ?_
      rw [← Draft.add_top]
      rfl
  | doctype span _ ih =>
      refine hstep (ih (hplaced.of_sublist (List.sublist_append_left _ _))) ?_
      rw [← Draft.add_top]
      rfl
  | @subset before inner nodes first last _ hinner ih =>
      have hends : Token.Placed source [.subsetOpen first, .subsetClose last] := by
        refine hplaced.of_sublist (.trans (.cons_cons _ ?_) (List.sublist_append_right _ _))
        exact List.sublist_append_right _ _
      have hclose : take options ⟨source, ⟨nodes.toArray, []⟩, .subset first⟩
          (.subsetClose last) = .ok ⟨source, ⟨(nodes ++
            [Node.unsupported (.through source first last) .documentType]).toArray, []⟩,
            .prolog⟩ := by
        show takeInSubset _ first (.subsetClose last) = _
        have hhull := hends.hull?_eq
        simp only [Token.span] at hhull
        simp only [takeInSubset, hull, hhull, ← Draft.add_top]
        rfl
      refine takes_append_iff.mpr
        ⟨_, ih (hplaced.of_sublist (List.sublist_append_left _ _)), takes_cons_iff.mpr ⟨_, rfl, ?_⟩⟩
      exact takes_append_iff.mpr ⟨_, takes_inner hinner, takes_singleton_iff.mpr hclose⟩
  | @blank before nodes run _ hblank ih =>
      refine hstep (ih (hplaced.of_sublist (List.sublist_append_left _ _))) ?_
      show (if Text.isBlank run.text = true then _ else _) = _
      rw [if_pos hblank]

theorem takes_of_epilogTokens (h : EpilogTokens tokens nodes) :
    Takes options ⟨source, draft, .epilog⟩ tokens
      ⟨source, nodes.foldl Draft.add draft, .epilog⟩ := by
  induction h with
  | nil => exact takes_nil_iff.mpr rfl
  | comment span content _ ih =>
      rw [List.foldl_append]
      exact takes_append_iff.mpr ⟨_, ih, takes_singleton_iff.mpr rfl⟩
  | instruction span target content _ ih =>
      rw [List.foldl_append]
      exact takes_append_iff.mpr ⟨_, ih, takes_singleton_iff.mpr rfl⟩
  | @blank before nodes run _ hblank ih =>
      refine takes_append_iff.mpr ⟨_, ih, takes_singleton_iff.mpr ?_⟩
      show (if Text.isBlank run.text = true then _ else _) = _
      rw [if_pos hblank]

/-- The tokens of a document lead behind the root element, with all nodes at the top
level. -/
theorem takes_of_documentTokens (h : DocumentTokens source options tokens nodes)
    (hplaced : Token.Placed source tokens) :
    Takes options { source } tokens ⟨source, ⟨nodes.toArray, []⟩, .epilog⟩ := by
  cases h with
  | @intro before middle after nodes later root hprolog hroot hepilog =>
      have hprologTakes : Takes options _ before _ := takes_of_prologTokens hprolog
        (hplaced.of_sublist (.trans (List.sublist_append_left _ _) (List.sublist_append_left _ _)))
      have hrootTakes := takes_of_elementTokens hroot
        (hplaced.of_sublist (.trans (List.sublist_append_right _ _) (List.sublist_append_left _ _)))
        ⟨nodes.toArray, []⟩ (Or.inl rfl)
      rw [Draft.add_top] at hrootTakes
      have hepilogTakes : Takes options
          ⟨source, ⟨(nodes ++ [root]).toArray, []⟩, .epilog⟩ after _ :=
        takes_of_epilogTokens hepilog
      rw [Draft.foldl_add_top] at hepilogTakes
      refine takes_append_iff.mpr ⟨_, takes_append_iff.mpr ⟨_, hprologTakes, hrootTakes⟩, ?_⟩
      simpa [stageBehind] using hepilogTakes

end Builder

/-! ## Reading as taking tokens -/

namespace Document

variable {source : Text} {options : ParseOptions} {tokens : List Token}
  {error? : Option SyntaxError}

/-- Where all tokens are taken, reading comes to what the builder finishes with. -/
theorem parse_of_takes {builder : Builder} (htokens : Token.ofSource source = (tokens, error?))
    (htakes : Builder.Takes options { source } tokens builder) :
    parse source options = builder.finish error? := by
  unfold Builder.Takes at htakes
  unfold parse
  rw [htokens]
  show Builder.build options source tokens error? = _
  unfold Builder.build
  rw [htakes]
  rfl

/-- Where a token is not taken, reading ends with its error. -/
theorem parse_of_not_taken {error : Error} (htokens : Token.ofSource source = (tokens, error?))
    (hfails : tokens.foldlM (Builder.take options) { source } = .error error) :
    parse source options = .error error := by
  unfold parse
  rw [htokens]
  show Builder.build options source tokens error? = _
  unfold Builder.build
  rw [hfails]
  rfl

/-- What is derived from the tokens of a text is its document. -/
theorem parse_of_documentTokens {nodes : List Node}
    (htokens : Token.ofSource source = (tokens, none))
    (h : DocumentTokens source options tokens nodes) :
    parse source options = .ok ⟨nodes, source⟩ := by
  obtain ⟨hplaced, _⟩ := Token.placed_of_ofSource htokens
  exact parse_of_takes htokens (Builder.takes_of_documentTokens h hplaced)

end Document

end XmlOutline
