import XmlOutline.Proofs.Derivation.Soundness

/-!
# The builder and the token stream in step

Two machines read a text one behind the other.  The token stream has a region and
counts the elements that are open; the builder has a stage and keeps those elements on a
stack.  `Builder.InStep` says how the two belong together: the builder is in the prolog
while the stream is before the root element, in a subset or a start tag together with
the stream, and behind the root element exactly when the stream is; and as many elements
are open as the stream counts, one less being counted in a start tag.

In each region only tokens come that the builder can take in its stage
(`Builder.outcome_of_take`), so of all that the builder checks only one thing can go
wrong along the way: a closing tag with another name (`Builder.Outcome`).

Main statement: `Document.inStep_of_parse`.
-/

namespace XmlOutline

namespace Builder

/-! ## In step -/

/-- The builder is where a token stream in this region and at this depth is. -/
inductive InStep (source : Text) : Region → Nat → Builder → Prop where
  | start : InStep source .start 0 ⟨source, ⟨#[], []⟩, .prolog⟩
  | beforeRoot {region : Region} (hregion : region = .beforeDoctype ∨ region = .beforeRoot)
      (children : Array Node) : InStep source region 0 ⟨source, ⟨children, []⟩, .prolog⟩
  | subset (children : Array Node) (opening : Span) :
      InStep source .subset 0 ⟨source, ⟨children, []⟩, .subset opening⟩
  | tag (children : Array Node) (inner : OpenElement) (outer : List OpenElement) :
      InStep source .tag outer.length ⟨source, ⟨children, inner :: outer⟩, .tag⟩
  | content (children : Array Node) (inner : OpenElement) (outer : List OpenElement) :
      InStep source .content (outer.length + 1) ⟨source, ⟨children, inner :: outer⟩, .content⟩
  | afterRoot (children : Array Node) :
      InStep source .afterRoot 0 ⟨source, ⟨children, []⟩, .epilog⟩

/-- What taking tokens comes to when the stream is at this place, a region and a depth:
a builder that is in step, or the error at a closing tag with another name than the
element that is open there. -/
inductive Outcome (source : Text) (place : Region × Nat) : Except Error Builder → Prop where
  | taken {next : Builder} (hstep : InStep source place.1 place.2 next) :
      Outcome source place (.ok next)
  | mismatched (span : Span) (expected found : String) :
      Outcome source place (.error (.located source span (.parse (.mismatchedTag expected found))))

/-- The spans that end with the token, if it closes anything, can be put together. -/
structure Covers (builder : Builder) (token : Token) : Prop where
  opened : ∀ inner ∈ builder.draft.opened.head?,
    ∃ whole, Span.hull? builder.source inner.span token.span = some whole
  subset : ∀ opening, builder.stage = .subset opening →
    ∃ whole, Span.hull? builder.source opening token.span = some whole

variable {source : Text} {options : ParseOptions} {region : Region} {depth : Nat}
  {children : Array Node} {inner : OpenElement} {outer : List OpenElement}
  {builder : Builder} {token : Token} {tokens : List Token}

theorem InStep.source_eq (h : InStep source region depth builder) : builder.source = source := by
  cases h <;> rfl

/-- Where nothing changes but that the start of the text is left behind. -/
theorem InStep.pass (h : InStep source region depth builder) :
    InStep source (if region = .start then .beforeDoctype else region) depth builder := by
  cases h with
  | start => exact .beforeRoot (Or.inl rfl) _
  | beforeRoot hregion children =>
      rcases hregion with rfl | rfl
      · exact .beforeRoot (Or.inl rfl) _
      · exact .beforeRoot (Or.inr rfl) _
  | subset => exact .subset _ _
  | tag => exact .tag _ _ _
  | content => exact .content _ _ _
  | afterRoot => exact .afterRoot _

theorem InStep.of_skips {start stop : TokenStream} (hskips : TokenStream.Skips start stop)
    (h : InStep source start.region start.depth builder) :
    InStep source stop.region stop.depth builder := by
  obtain ⟨_, hregion, hdepth⟩ := hskips.reads
  rw [hdepth]
  rcases hregion with rfl | hregion
  · exact h
  · rw [hregion]
    exact h.pass

/-- What the builder has reached lies before the next token, so it can be put together
with that. -/
theorem Reached.covers (h : Reached source options tokens builder)
    (hplaced : Token.Placed source (tokens ++ [token])) : builder.Covers token := by
  have hcover (first : Token) (hfirst : first ∈ tokens) :
      ∃ whole, Span.hull? source first.span token.span = some whole :=
    ⟨_, (hplaced.pair hfirst).hull?_eq⟩
  cases h with
  | prolog => exact ⟨by simp, by simp⟩
  | @subset before inner nodes first hbefore hinner =>
      refine ⟨by simp, fun opening hstage => ?_⟩
      obtain rfl := Stage.subset.inj hstage
      exact hcover (.subsetOpen first) (by simp)
  | tag first name attributes houter =>
      refine ⟨fun inner hinner => ?_, by simp⟩
      obtain rfl := Option.some.inj hinner
      exact hcover (.tagStart first name) (by simp)
  | content houter hopened =>
      refine ⟨fun inner hinner => ?_, by simp⟩
      cases houter with
      | prolog => exact absurd rfl hopened
      | inside first name attributes tagEnd houter hcontent =>
          obtain rfl := Option.some.inj hinner
          exact hcover (.tagStart first name) (by simp)
  | epilog => exact ⟨by simp, by simp⟩

/-! ## One token in each stage -/

/-- Closing the innermost element leads back into the outer one, or behind the root. -/
theorem outcome_of_closeElement {stage : Stage} {last : Span} {name? : Option Name}
    (hcovers : ∃ whole, Span.hull? source inner.span last = some whole) :
    Outcome source (if outer.length = 0 then .afterRoot else .content, outer.length)
      (closeElement ⟨source, ⟨children, inner :: outer⟩, stage⟩ last name?) := by
  obtain ⟨whole, hwhole⟩ := hcovers
  by_cases hname : ∀ name ∈ name?, (inner.name == name) = true
  · have hclose : closeElement ⟨source, (⟨children, outer⟩ : Draft).openElement inner, stage⟩
        last name? = .ok ⟨source, Draft.add ⟨children, outer⟩ { inner with span := whole }.toNode,
          stageBehind ⟨children, outer⟩⟩ :=
      closeElement_eq_ok_iff.mpr ⟨hname, whole, hwhole, rfl⟩
    have htaken : InStep source (if outer.length = 0 then .afterRoot else .content) outer.length
        ⟨source, Draft.add ⟨children, outer⟩ { inner with span := whole }.toNode,
          stageBehind ⟨children, outer⟩⟩ := by
      cases outer with
      | nil => exact .afterRoot _
      | cons parent outer => exact .content _ _ _
    exact hclose ▸ .taken htaken
  · cases name? with
    | none => exact absurd (by simp) hname
    | some name =>
        have hdiffers : (inner.name == name) = false := by simpa using hname
        have hclose : closeElement ⟨source, (⟨children, outer⟩ : Draft).openElement inner, stage⟩
            last (some name) = .error (.located source last (.parse (.mismatchedTag
              (String.ofList inner.name.display) (String.ofList name.display)))) :=
          closeElement_of_ne hdiffers
        exact hclose ▸ .mismatched _ _ _

/-- Before the root element, nothing comes that the builder refuses: a declaration only
at the very start, and no text. -/
theorem outcome_of_takeInProlog
    (h : InStep source region depth ⟨source, ⟨children, []⟩, .prolog⟩)
    (hmay : token.mayStandIn region = true) :
    Outcome source (TokenStream.following region depth (some token))
      (takeInProlog ⟨source, ⟨children, []⟩, .prolog⟩ token) := by
  have hpassed (children : Array Node) :
      InStep source (if region = .start then .beforeDoctype else region) depth
        ⟨source, ⟨children, []⟩, .prolog⟩ := by
    cases h with
    | start => exact .beforeRoot (Or.inl rfl) _
    | beforeRoot hregion => exact (InStep.beforeRoot hregion _).pass
  have hdepth : depth = 0 := by
    cases h with
    | start => rfl
    | beforeRoot => rfl
  cases token with
  | tagStart span name => exact hdepth ▸ .taken (.tag _ _ [])
  | declaration span =>
      cases h with
      | start => exact .taken (hpassed _)
      | beforeRoot hregion => rcases hregion with rfl | rfl <;> cases hmay
  | comment span content => exact .taken (hpassed _)
  | instruction span target content => exact .taken (hpassed _)
  | doctype span => exact hdepth ▸ .taken (.beforeRoot (Or.inr rfl) _)
  | subsetOpen span => exact hdepth ▸ .taken (.subset _ _)
  | _ =>
      cases h with
      | start => cases hmay
      | beforeRoot hregion => rcases hregion with rfl | rfl <;> cases hmay

theorem outcome_of_takeInSubset {opening : Span}
    (hcovers : ∃ whole, Span.hull? source opening token.span = some whole)
    (hmay : token.mayStandIn .subset = true) :
    Outcome source (TokenStream.following .subset 0 (some token))
      (takeInSubset ⟨source, ⟨children, []⟩, .subset opening⟩ opening token) := by
  cases token with
  | subsetClose span =>
      obtain ⟨whole, hwhole⟩ := hcovers
      have hclose : takeInSubset ⟨source, ⟨children, []⟩, .subset opening⟩ opening
          (.subsetClose span) = .ok ⟨source,
            ⟨children.push (.unsupported whole .documentType), []⟩, .prolog⟩ := by
        have hhull : Span.hull? source opening span = some whole := hwhole
        simp only [takeInSubset, hull, hhull]
        rfl
      exact hclose ▸ .taken (.beforeRoot (Or.inr rfl) _)
  | entity span => exact .taken (.subset _ _)
  | comment span content => exact .taken (.subset _ _)
  | instruction span target content => exact .taken (.subset _ _)
  | _ => cases hmay

theorem outcome_of_takeInTag
    (hcovers : ∃ whole, Span.hull? source inner.span token.span = some whole)
    (hmay : token.mayStandIn .tag = true) :
    Outcome source (TokenStream.following .tag outer.length (some token))
      (takeInTag ⟨source, ⟨children, inner :: outer⟩, .tag⟩ token) := by
  cases token with
  | tagAttribute attr => exact .taken (.tag _ _ _)
  | tagEnd span => exact .taken (.content _ _ _)
  | emptyTagEnd span =>
      have hclose : Outcome source
          (if outer.length = 0 then .afterRoot else .content, outer.length)
          (closeElement ⟨source, ⟨children, inner :: outer⟩, .tag⟩ span none) :=
        outcome_of_closeElement hcovers
      exact hclose
  | _ => cases hmay

/-- Inside an element a closing tag may have the wrong name; all else is taken. -/
theorem outcome_of_takeInContent
    (hcovers : ∃ whole, Span.hull? source inner.span token.span = some whole)
    (hmay : token.mayStandIn .content = true) :
    Outcome source (TokenStream.following .content (outer.length + 1) (some token))
      (takeInContent ⟨source, ⟨children, inner :: outer⟩, .content⟩ options token) := by
  cases token with
  | tagStart span name => exact .taken (.tag _ _ (inner :: outer))
  | text run =>
      show Outcome source (.content, outer.length + 1)
        (take options ⟨source, ⟨children, inner :: outer⟩, .content⟩ (.text run))
      rw [take_text_eq]
      split
      · exact .taken (.content _ _ _)
      · exact .taken (.content _ _ _)
  | cdata span content => exact .taken (.content _ _ _)
  | comment span content => exact .taken (.content _ _ _)
  | instruction span target content => exact .taken (.content _ _ _)
  | closeTag span name =>
      have hclose : Outcome source
          (if outer.length = 0 then .afterRoot else .content, outer.length)
          (closeElement ⟨source, ⟨children, inner :: outer⟩, .content⟩ span (some name)) :=
        outcome_of_closeElement hcovers
      rw [TokenStream.following_closeTag]
      exact hclose
  | _ => cases hmay

theorem outcome_of_takeInEpilog (hmay : token.mayStandIn .afterRoot = true) :
    Outcome source (TokenStream.following .afterRoot 0 (some token))
      (takeInEpilog ⟨source, ⟨children, []⟩, .epilog⟩ token) := by
  cases token with
  | comment span content => exact .taken (.afterRoot _)
  | instruction span target content => exact .taken (.afterRoot _)
  | _ => cases hmay

/-- A token that comes in the region is taken, and leaves the builder in step, unless it
is a closing tag with the wrong name. -/
theorem outcome_of_take (h : InStep source region depth builder)
    (hmay : token.mayStandIn region = true) (hcovers : builder.Covers token) :
    Outcome source (TokenStream.following region depth (some token))
      (take options builder token) := by
  cases h with
  | start => exact outcome_of_takeInProlog .start hmay
  | beforeRoot hregion => exact outcome_of_takeInProlog (.beforeRoot hregion _) hmay
  | subset children opening => exact outcome_of_takeInSubset (hcovers.subset opening rfl) hmay
  | tag children inner outer => exact outcome_of_takeInTag (hcovers.opened inner rfl) hmay
  | content children inner outer => exact outcome_of_takeInContent (hcovers.opened inner rfl) hmay
  | afterRoot => exact outcome_of_takeInEpilog hmay

/-! ## All tokens -/

/-- Along a run of the stream, the builder stays in step until a closing tag has the
wrong name. -/
theorem outcome_of_yields {start stop : TokenStream} {later : List Token}
    (hyields : TokenStream.Yields start later stop)
    (h : InStep source start.region start.depth builder)
    (hreached : Reached source options tokens builder)
    (hplaced : Token.Placed source (tokens ++ later)) :
    Outcome source (stop.region, stop.depth) (later.foldlM (take options) builder) := by
  induction hyields generalizing tokens builder with
  | nil => exact .taken h
  | @cons start found next stop token later hskips hrest hstep _ ih =>
      rw [List.append_cons] at hplaced
      have htoken : Token.Placed source (tokens ++ [token]) :=
        hplaced.of_sublist (List.sublist_append_left _ _)
      obtain ⟨_, hmay, _⟩ := TokenStream.spelled_of_step hrest hstep
      obtain ⟨_, _, _, hfollowing⟩ := TokenStream.step_eq_ok_iff.mp hstep
      have houtcome : Outcome source (next.region, next.depth) (take options builder token) := by
        rw [← hfollowing]
        exact outcome_of_take (h.of_skips hskips) hmay (hreached.covers htoken)
      rw [List.foldlM_cons]
      cases htake : take options builder token with
      | ok middle =>
          rw [htake] at houtcome
          cases houtcome with
          | taken hmiddle => exact ih hmiddle (reached_of_take hreached htoken htake) hplaced
      | error error =>
          rw [htake] at houtcome
          cases houtcome with
          | mismatched span expected found => exact .mismatched span expected found

/-- From the start of a text on, the builder stays in step with the stream. -/
theorem outcome_of_ofSource {stop : TokenStream}
    (hyields : TokenStream.Yields (.ofSource source) tokens stop) :
    Outcome source (stop.region, stop.depth) (tokens.foldlM (take options) { source }) := by
  obtain ⟨hregion, hdepth⟩ := TokenStream.ofSource_region source
  obtain ⟨hplaced, _⟩ := hyields.placed (TokenStream.ofSource_in source)
  refine outcome_of_yields hyields ?_ (.prolog .nil) hplaced
  rw [hregion, hdepth]
  exact .start

end Builder

/-! ## Faults -/

/-- The faults that a text can have: it cannot be cut into tokens, it ends too early, or
its tags do not match.  All others would mean that the builder and the stream are not
in step. -/
inductive ParseFault.LiesInText : ParseFault → Prop where
  | badSyntax (error : SyntaxError) : LiesInText (.badSyntax error)
  | unexpectedEnd : LiesInText .unexpectedEnd
  | unclosedTag (name : String) : LiesInText (.unclosedTag name)
  | mismatchedTag (expected found : String) : LiesInText (.mismatchedTag expected found)

/-- The error is a fault that lies in this text, with a span. -/
def Error.LiesIn (source : Text) (error : Error) : Prop :=
  ∃ span fault, error = .located source span (.parse fault) ∧ fault.LiesInText

theorem Builder.liesIn_of_finish {builder : Builder} {error? : Option SyntaxError} {error : Error}
    (h : builder.finish error? = .error error) : error.LiesIn builder.source := by
  cases error? with
  | none =>
      cases hmissing : builder.missing? with
      | none => simp [finish, hmissing] at h
      | some missing =>
          obtain ⟨span, fault⟩ := missing
          simp only [finish, hmissing, fail, Except.error.injEq] at h
          refine ⟨span, fault, h.symm, ?_⟩
          unfold missing? at hmissing
          split at hmissing <;> cases hmissing
          · exact .unclosedTag _
          · exact .unexpectedEnd
          · exact .unexpectedEnd
  | some cause =>
      cases hstage : builder.stage with
      | subset opening =>
          simp only [finish, hstage, fail, Except.error.injEq] at h
          exact ⟨opening, _, h.symm, .badSyntax cause⟩
      | _ =>
          simp only [finish, hstage, fail, Except.error.injEq] at h
          exact ⟨_, _, h.symm, .badSyntax cause⟩

/-- Reading fails only because of a fault that lies in the text. -/
theorem Document.liesIn_of_parse {source : Text} {options : ParseOptions} {error : Error}
    (h : Document.parse source options = .error error) : error.LiesIn source := by
  cases htokens : Token.ofSource source with
  | mk tokens error? =>
      obtain ⟨stream, _, hyields, _⟩ := TokenStream.tokens_eq_iff.mp htokens
      have houtcome : Builder.Outcome source (stream.region, stream.depth)
          (tokens.foldlM (Builder.take options) { source }) := Builder.outcome_of_ofSource hyields
      rcases parse_cases htokens options with
        ⟨found, htakes, hparse⟩ | ⟨builder, htakes, _, hparse⟩
      · rw [htakes] at houtcome
        obtain rfl := Except.error.inj (h.symm.trans hparse)
        cases houtcome with
        | mismatched span expected found => exact ⟨span, _, rfl, .mismatchedTag expected found⟩
      · unfold Builder.Takes at htakes
        rw [htakes] at houtcome
        cases houtcome with
        | taken hstep => exact hstep.source_eq ▸ Builder.liesIn_of_finish (hparse.symm.trans h)

/-- The builder is in step with the stream behind all tokens that it has taken, and so no
text makes reading fail but for a fault that lies in it: none is refused because a
token or a declaration comes where the builder does not expect it, or because a span
cannot be put together. -/
theorem Document.inStep_of_parse (source : Text) (options : ParseOptions) :
    (∀ tokens stream builder, TokenStream.Yields (.ofSource source) tokens stream →
      Builder.Takes options { source } tokens builder →
        Builder.InStep source stream.region stream.depth builder) ∧
    ∀ error, Document.parse source options = .error error →
      ∃ span fault, error = .located source span (.parse fault) ∧ fault.LiesInText := by
  refine ⟨fun tokens stream builder hyields htakes => ?_, fun error => liesIn_of_parse⟩
  have houtcome : Builder.Outcome source (stream.region, stream.depth)
      (tokens.foldlM (Builder.take options) { source }) := Builder.outcome_of_ofSource hyields
  unfold Builder.Takes at htakes
  rw [htakes] at houtcome
  cases houtcome with
  | taken hstep => exact hstep

/-- In `<a><b></b>` all tokens are taken, and an element is left open. -/
theorem Document.inStep_of_parse_unclosed :
    (∃ tokens stream builder, tokens.length = 5 ∧
      TokenStream.Yields (.ofSource "<a><b></b>".toList) tokens stream ∧
      Builder.Takes {} { source := "<a><b></b>".toList } tokens builder ∧
      Builder.InStep "<a><b></b>".toList stream.region stream.depth builder) ∧
    ∃ error, Document.parse "<a><b></b>".toList = .error error ∧
      ∃ span fault, error = .located "<a><b></b>".toList span (.parse fault) ∧
        fault.LiesInText := by
  constructor
  · obtain ⟨stream, _, hyields, _⟩ := TokenStream.tokens_eq_iff.mp
      (Prod.eta (Token.ofSource "<a><b></b>".toList)).symm
    obtain ⟨builder, htakes⟩ : ∃ builder, (Token.ofSource "<a><b></b>".toList).1.foldlM
        (Builder.take {}) { source := "<a><b></b>".toList } = .ok builder :=
      exists_eq_ok_of_isOk (by decide +kernel)
    exact ⟨_, stream, builder, by decide +kernel, hyields, htakes,
      (Document.inStep_of_parse "<a><b></b>".toList {}).1 _ stream builder hyields htakes⟩
  · obtain ⟨error, h⟩ : ∃ error, Document.parse "<a><b></b>".toList = .error error :=
      exists_eq_error_of_isOk (by decide +kernel)
    exact ⟨error, h, (Document.inStep_of_parse "<a><b></b>".toList {}).2 error h⟩

end XmlOutline
