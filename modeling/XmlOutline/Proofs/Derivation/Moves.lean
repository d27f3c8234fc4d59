import XmlOutline.Proofs.Derivation.Completeness
import XmlOutline.Proofs.Derivation.Nodes

/-!
# What a token does to a builder

A builder that takes a token does one of a few things: it lets the token pass, adds a leaf
or an attribute, opens or closes an element or a subset, or leaves a start tag
(`Builder.Moves`).  A builder that does not take it has one of a few reasons
(`Builder.Rejects`), and the error is at the token.  Both say what the builder was like
before, so that what holds along a run, and what can never go wrong in one, follow by a
look at each of them.

Main statements: `Builder.moves_of_take` and `Builder.rejects_of_take`.
-/

namespace XmlOutline

/-- Whatever goes wrong, it is a fault of this kind at this span. -/
def FailsWith {α : Type} (known : ParseFault → Prop) (source : Text) (span : Span)
    (result : Except Error α) : Prop :=
  ∀ error, result = .error error →
    ∃ fault, error = .located source span (.parse fault) ∧ known fault

theorem FailsWith.mono {α : Type} {known weaker : ParseFault → Prop} {source : Text} {span : Span}
    {result : Except Error α} (h : FailsWith known source span result)
    (hweaker : ∀ fault, known fault → weaker fault) : FailsWith weaker source span result := by
  intro error herror
  obtain ⟨fault, hlocated, hfault⟩ := h error herror
  exact ⟨fault, hlocated, hweaker fault hfault⟩

namespace Builder

/-- The span is that of something open, which is still to be extended to its end. -/
def Awaits (builder : Builder) (first : Span) : Prop :=
  builder.stage = .subset first ∨ first ∈ builder.draft.opened.map OpenElement.span

/-- What a token does to a builder that takes it. -/
inductive Moves (builder : Builder) (token : Token) : Builder → Prop where
  /-- The token leaves no trace. -/
  | passes : Moves builder token builder
  | addsLeaf {node : Node} (hleaf : token.leaf? = some node) :
      Moves builder token (builder.add node)
  | opensElement (name : Name) (hstage : builder.stage = .prolog ∨ builder.stage = .content) :
      Moves builder token (builder.openElement token.span name)
  | addsAttribute (attr : Attribute) {inner : OpenElement} {outer : List OpenElement}
      (hstage : builder.stage = .tag) (hopened : builder.draft.opened = inner :: outer) :
      Moves builder token
        { builder with draft := ⟨builder.draft.children,
          { inner with attributes := inner.attributes.push attr } :: outer⟩ }
  | endsTag (hstage : builder.stage = .tag) :
      Moves builder token { builder with stage := .content }
  /-- The innermost element goes to the one around it, or it is the root. -/
  | closesElement {inner : OpenElement} {outer : List OpenElement} {whole : Span}
      (hstage : builder.stage = .tag ∨ builder.stage = .content)
      (hopened : builder.draft.opened = inner :: outer)
      (hhull : Span.hull? builder.source inner.span token.span = some whole) :
      Moves builder token
        ⟨builder.source,
          Draft.add ⟨builder.draft.children, outer⟩ { inner with span := whole }.toNode,
          stageBehind ⟨builder.draft.children, outer⟩⟩
  | opensSubset (hstage : builder.stage = .prolog) :
      Moves builder token { builder with stage := .subset token.span }
  | closesSubset {opening whole : Span} (hstage : builder.stage = .subset opening)
      (hhull : Span.hull? builder.source opening token.span = some whole) :
      Moves builder token { builder.add (.unsupported whole .documentType) with stage := .prolog }

/-- What can be wrong with a token that a builder does not take. -/
inductive Rejects (builder : Builder) (token : Token) : ParseFault → Prop where
  /-- Such a token does not belong here. -/
  | misplaced (place : String) :
      Rejects builder token (.unexpected ("Unexpected " ++ token.label ++ " " ++ place))
  | notFirst : Rejects builder token .declarationNotFirst
  /-- The token is for an element, and none is open. -/
  | unopened (hstage : builder.stage = .tag ∨ builder.stage = .content)
      (hopened : builder.draft.opened = []) (message : String) :
      Rejects builder token (.unexpected message)
  /-- The token closes an element of another name. -/
  | mismatched {inner : OpenElement} {outer : List OpenElement} (closing : Name)
      (hopened : builder.draft.opened = inner :: outer)
      (htoken : token = .closeTag token.span closing) (hname : (inner.name == closing) = false) :
      Rejects builder token (.mismatchedTag (String.ofList inner.name.display)
        (String.ofList closing.display))
  /-- The token ends something with which it has no span in common. -/
  | uncovered {first : Span} (hfirst : builder.Awaits first)
      (hhull : Span.hull? builder.source first token.span = none) :
      Rejects builder token .spanOutsideSource

variable {options : ParseOptions} {source : Text} {span last : Span} {builder next : Builder}
  {token : Token} {tokens : List Token} {node : Node} {name? : Option Name} {error : Error}
  {known : ParseFault → Prop}

/-! ## Tokens that are taken -/

private theorem eq_of_passed {test : Prop} [Decidable test] {error : Error}
    (h : (if test then .ok builder else .error error) = Except.ok next) : next = builder := by
  split at h
  · exact (Except.ok.inj h).symm
  · cases h

theorem eq_add_of_addInside (h : builder.addInside token node = .ok next) :
    next = builder.add node := by
  unfold addInside at h
  split at h
  · cases h
  · exact (Except.ok.inj h).symm

theorem moves_of_closeElement (hstage : builder.stage = .tag ∨ builder.stage = .content)
    (hlast : token.span = last) (h : builder.closeElement last name? = .ok next) :
    Moves builder token next := by
  obtain ⟨source, ⟨children, opened⟩, stage⟩ := builder
  cases opened with
  | nil => cases h
  | cons inner outer =>
      have hclose : closeElement ⟨source, (⟨children, outer⟩ : Draft).openElement inner, stage⟩
          last name? = .ok next := h
      obtain ⟨_, whole, hhull, rfl⟩ := closeElement_eq_ok_iff.mp hclose
      exact .closesElement hstage rfl (hlast ▸ hhull)

theorem moves_of_takeInSubset {opening : Span} (hstage : builder.stage = .subset opening)
    (h : builder.takeInSubset opening token = .ok next) : Moves builder token next := by
  cases token with
  | subsetClose span =>
      cases hhull : Span.hull? builder.source opening span with
      | none =>
          simp only [takeInSubset, hull, hhull] at h
          cases h
      | some whole =>
          simp only [takeInSubset, hull, hhull] at h
          obtain rfl := Except.ok.inj h
          exact .closesSubset hstage hhull
  | entity | comment | instruction =>
      obtain rfl := Except.ok.inj h
      exact .passes
  | _ => cases h

/-- A token that is taken does one of the things that a token can do. -/
theorem moves_of_take (h : builder.take options token = .ok next) : Moves builder token next := by
  unfold take at h
  cases hstage : builder.stage with
  | prolog =>
      rw [hstage] at h
      cases token with
      | tagStart span name =>
          obtain rfl := Except.ok.inj h
          exact .opensElement name (.inl hstage)
      | declaration | text =>
          obtain rfl := eq_of_passed h
          exact .passes
      | comment | instruction | doctype =>
          obtain rfl := Except.ok.inj h
          exact .addsLeaf rfl
      | subsetOpen span =>
          obtain rfl := Except.ok.inj h
          exact .opensSubset hstage
      | _ => cases h
  | subset opening =>
      rw [hstage] at h
      exact moves_of_takeInSubset hstage h
  | tag =>
      rw [hstage] at h
      cases token with
      | tagAttribute attr =>
          simp only [takeInTag, Draft.addAttribute?] at h
          cases hopened : builder.draft.opened with
          | nil =>
              rw [hopened] at h
              cases h
          | cons inner outer =>
              rw [hopened] at h
              obtain rfl := Except.ok.inj h
              exact .addsAttribute attr hstage hopened
      | tagEnd span =>
          obtain rfl := Except.ok.inj h
          exact .endsTag hstage
      | emptyTagEnd span =>
          have hclose : builder.closeElement span none = .ok next := h
          exact moves_of_closeElement (.inl hstage) rfl hclose
      | _ => cases h
  | content =>
      rw [hstage] at h
      cases token with
      | tagStart span name =>
          obtain rfl := Except.ok.inj h
          exact .opensElement name (.inr hstage)
      | text run =>
          simp only [takeInContent] at h
          split at h
          · obtain rfl := Except.ok.inj h
            exact .passes
          · obtain rfl := eq_add_of_addInside h
            exact .addsLeaf rfl
      | cdata | comment | instruction =>
          obtain rfl := eq_add_of_addInside h
          exact .addsLeaf rfl
      | closeTag span name =>
          have hclose : builder.closeElement span (some name) = .ok next := h
          exact moves_of_closeElement (.inr hstage) rfl hclose
      | _ => cases h
  | epilog =>
      rw [hstage] at h
      cases token with
      | comment | instruction =>
          obtain rfl := Except.ok.inj h
          exact .addsLeaf rfl
      | text run =>
          obtain rfl := eq_of_passed h
          exact .passes
      | _ => cases h

theorem Moves.source_eq (h : Moves builder token next) : next.source = builder.source := by
  cases h <;> rfl

/-! ## Tokens that are not taken -/

theorem failsWith_ok {α : Type} (value : α) : FailsWith known source span (.ok value) :=
  fun _ h => nomatch h

theorem failsWith_fail {α : Type} (builder : Builder) (span : Span) {fault : ParseFault}
    (hfault : known fault) :
    FailsWith known builder.source span (builder.fail span fault : Except Error α) :=
  fun _ h => ⟨fault, (Except.error.inj h).symm, hfault⟩

theorem failsWith_bind {α β : Type} {first : Except Error α} {second : α → Except Error β}
    (hfirst : FailsWith known source span first)
    (hsecond : ∀ value, FailsWith known source span (second value)) :
    FailsWith known source span (first >>= second) := by
  cases first with
  | error error =>
      intro found hfound
      obtain rfl := Except.error.inj hfound
      exact hfirst _ rfl
  | ok value => exact hsecond value

theorem failsWith_ite {α : Type} {test : Prop} [Decidable test] {first second : Except Error α}
    (hfirst : test → FailsWith known source span first)
    (hsecond : ¬test → FailsWith known source span second) :
    FailsWith known source span (if test then first else second) := by
  split
  · exact hfirst ‹_›
  · exact hsecond ‹_›

theorem rejects_of_hull {first : Span} (hfirst : builder.Awaits first) (hlast : token.span = last) :
    FailsWith (builder.Rejects token) builder.source last (builder.hull first last) := by
  subst hlast
  unfold hull
  cases hhull : Span.hull? builder.source first token.span with
  | none => exact failsWith_fail _ _ (.uncovered hfirst hhull)
  | some whole => exact failsWith_ok _

theorem rejects_of_addInside (hstage : builder.stage = .tag ∨ builder.stage = .content) :
    FailsWith (builder.Rejects token) builder.source token.span (builder.addInside token node) :=
  failsWith_ite
    (fun hopened => failsWith_fail _ _ (.unopened hstage (List.isEmpty_iff.mp hopened) _))
    fun _ => failsWith_ok _

/-- An element is not closed if there is none, for the name of the tag if it has one, or
because the two tags have no span in common. -/
theorem rejects_of_closeElement (hstage : builder.stage = .tag ∨ builder.stage = .content)
    (hlast : token.span = last) (hname : ∀ name ∈ name?, token = .closeTag token.span name) :
    FailsWith (builder.Rejects token) builder.source last (builder.closeElement last name?) := by
  unfold closeElement
  cases hopened : builder.draft.opened with
  | nil => exact failsWith_fail _ _ (.unopened hstage hopened _)
  | cons inner outer =>
      have hclose (make : Span → Builder) : FailsWith (builder.Rejects token) builder.source last
          (builder.hull inner.span last >>= fun span => .ok (make span)) := by
        have hawaits : builder.Awaits inner.span := .inr (by simp [hopened])
        exact failsWith_bind (rejects_of_hull hawaits hlast) fun _ => failsWith_ok _
      cases name? with
      | none => exact hclose _
      | some name =>
          refine failsWith_ite (fun _ => hclose _) fun hdiffers => ?_
          have hmismatched := Rejects.mismatched name hopened (hname name rfl)
            (by simpa using hdiffers)
          exact failsWith_bind (failsWith_fail _ _ hmismatched) fun _ => hclose _

/-- A token that is not taken is an error at its own span, for one of the reasons that
there are. -/
theorem rejects_of_take (options : ParseOptions) (builder : Builder) (token : Token) :
    FailsWith (builder.Rejects token) builder.source token.span (builder.take options token) := by
  have hrefuse (place : String) : FailsWith (builder.Rejects token) builder.source token.span
      (builder.refuse token place : Except Error Builder) :=
    failsWith_fail _ _ (.misplaced place)
  unfold take
  cases hstage : builder.stage with
  | prolog =>
      cases token with
      | declaration span =>
          exact failsWith_ite (fun _ => failsWith_ok _) fun _ => failsWith_fail _ _ .notFirst
      | text run => exact failsWith_ite (fun _ => failsWith_ok _) fun _ => hrefuse _
      | tagStart | comment | instruction | doctype | subsetOpen => exact failsWith_ok _
      | _ => exact hrefuse _
  | subset opening =>
      cases token with
      | subsetClose span =>
          exact failsWith_bind (rejects_of_hull (.inl hstage) rfl) fun _ => failsWith_ok _
      | entity | comment | instruction => exact failsWith_ok _
      | _ => exact hrefuse _
  | tag =>
      cases token with
      | tagAttribute attr =>
          dsimp only [takeInTag, Draft.addAttribute?]
          cases hopened : builder.draft.opened with
          | nil => exact failsWith_fail _ _ (.unopened (.inl hstage) hopened _)
          | cons inner outer => exact failsWith_ok _
      | tagEnd => exact failsWith_ok _
      | emptyTagEnd span =>
          have hclose : FailsWith (builder.Rejects (.emptyTagEnd span)) builder.source span
              (builder.closeElement span none) :=
            rejects_of_closeElement (.inl hstage) rfl (by simp)
          exact hclose
      | _ => exact hrefuse _
  | content =>
      cases token with
      | text run =>
          exact failsWith_ite (fun _ => failsWith_ok _)
            fun _ => rejects_of_addInside (.inr hstage)
      | cdata | comment | instruction => exact rejects_of_addInside (.inr hstage)
      | tagStart => exact failsWith_ok _
      | closeTag span name =>
          have hclose : FailsWith (builder.Rejects (.closeTag span name)) builder.source span
              (builder.closeElement span (some name)) :=
            rejects_of_closeElement (.inr hstage) rfl fun closing hclosing =>
              congrArg (Token.closeTag span) (Option.some.inj hclosing)
          exact hclose
      | _ => exact hrefuse _
  | epilog =>
      cases token with
      | text run => exact failsWith_ite (fun _ => failsWith_ok _) fun _ => hrefuse _
      | comment | instruction => exact failsWith_ok _
      | _ => exact hrefuse _

/-! ## Runs -/

/-- What every token that is taken keeps so holds behind a run of them. -/
theorem Takes.induct {property : Builder → Prop} (htakes : Takes options builder tokens next)
    (hstep : ∀ token ∈ tokens, ∀ before after : Builder, Moves before token after →
      property before → property after) (hstart : property builder) : property next := by
  induction tokens generalizing builder with
  | nil => exact takes_nil_iff.mp htakes ▸ hstart
  | cons token tokens ih =>
      obtain ⟨middle, htake, htakes⟩ := takes_cons_iff.mp htakes
      have hmiddle : property middle :=
        hstep token List.mem_cons_self builder middle (moves_of_take htake) hstart
      exact ih htakes (fun other hother => hstep other (List.mem_cons_of_mem _ hother)) hmiddle

theorem Takes.source_eq (h : Takes options builder tokens next) : next.source = builder.source :=
  h.induct (fun _ _ _ _ hmoves hsource => hmoves.source_eq.trans hsource) rfl

/-- Where a run of tokens is not taken, there is a first token that is not. -/
theorem exists_not_taken (h : tokens.foldlM (take options) builder = .error error) :
    ∃ before token after middle, tokens = before ++ token :: after ∧
      Takes options builder before middle ∧ take options middle token = .error error := by
  induction tokens generalizing builder with
  | nil => cases h
  | cons token tokens ih =>
      rw [List.foldlM_cons] at h
      cases htake : take options builder token with
      | error found =>
          rw [htake] at h
          obtain rfl := Except.error.inj h
          exact ⟨[], token, tokens, builder, rfl, rfl, htake⟩
      | ok next =>
          rw [htake] at h
          obtain ⟨before, other, after, middle, rfl, htakes, hother⟩ := ih h
          exact ⟨token :: before, other, after, middle, rfl,
            takes_cons_iff.mpr ⟨next, htake, htakes⟩, hother⟩

end Builder

end XmlOutline
