import XmlOutline.Proofs.Derivation.Balance
import XmlOutline.Proofs.Derivation.Lockstep

/-!
# The stages of a run

A builder can be given any tokens in any order, not only those that some text is cut into.
As long as it takes them, its stage tells what its draft holds (`Builder.Staged`): before
the root element nothing is open and no element stands at the top level; while the root is
open there still is none; and behind it there is this one, and nothing is open any more.
The last stage is never left, since only the end of an element leads there, and behind the
root there is none to end.

Two of the reasons to reject a token never apply, then.  A token that belongs into an
element finds one open (`Builder.Rejects.ne_unopened`).  And if the tokens are pieces of the
source, what a token ends has a hull with it, as any two slices do
(`Builder.Rejects.ne_spanOutsideSource`).  There is no result without a root element, because
a document is completed in the last stage only.

Main statement: `Builder.staged_of_takes`.
-/

namespace XmlOutline

/-! ## Elements at the top level -/

namespace Draft

variable {draft : Draft} {node : Node}

/-- The elements at the top level. -/
def elements (draft : Draft) : List Node := draft.children.toList.filter (·.name?.isSome)

/-- Where an element is open, nothing goes to the top level. -/
theorem elements_add_of_opened (hopened : draft.opened ≠ []) (node : Node) :
    (draft.add node).elements = draft.elements := by
  unfold add
  cases hcase : draft.opened with
  | nil => exact absurd hcase hopened
  | cons inner outer => rfl

theorem elements_add_top (children : Array Node) (node : Node) :
    (Draft.add ⟨children, []⟩ node).elements =
      children.toList.filter (·.name?.isSome) ++ [node].filter (·.name?.isSome) := by
  simp [elements, add]

theorem elements_add_of_leaf (hleaf : node.name? = none) :
    (draft.add node).elements = draft.elements := by
  obtain ⟨children, opened⟩ := draft
  cases opened with
  | nil => rw [elements_add_top, List.filter_cons_of_neg (by simp [hleaf])]; simp [elements]
  | cons inner outer => rfl

/-- The open elements keep their spans when a node is added. -/
theorem map_span_opened_add (node : Node) :
    (draft.add node).opened.map OpenElement.span = draft.opened.map OpenElement.span := by
  unfold add
  cases hopened : draft.opened with
  | nil => simp
  | cons inner outer => simp

end Draft

namespace Builder

variable {options : ParseOptions} {source : Text} {builder next : Builder} {token : Token}
  {tokens : List Token} {first : Span} {fault : ParseFault}

/-! ## What a stage says of the draft -/

theorem Balanced.opened_eq_nil_iff (h : builder.Balanced) : builder.draft.opened = [] ↔
    builder.stage = .prolog ∨ (∃ opening, builder.stage = .subset opening) ∨
      builder.stage = .epilog := by
  unfold Balanced at h
  cases hstage : builder.stage <;> simp_all

/-- The stage of the builder tells what its draft holds. -/
structure Staged (builder : Builder) : Prop where
  /-- Before the root element, a subset included, and behind it no element is open; and
  everywhere else there is one. -/
  opened_eq_nil_iff : builder.draft.opened = [] ↔
    builder.stage = .prolog ∨ (∃ opening, builder.stage = .subset opening) ∨
      builder.stage = .epilog
  /-- Until the root element is closed there is no element at the top level. -/
  elements_eq_nil : builder.stage ≠ .epilog → builder.draft.elements = []
  /-- Behind the root element, it is the only one there. -/
  elements_eq_singleton : builder.stage = .epilog → ∃ root, builder.draft.elements = [root]

theorem Staged.balanced (h : builder.Staged) : builder.Balanced := by
  unfold Balanced
  rw [ne_eq, h.opened_eq_nil_iff]
  cases hstage : builder.stage <;> simp

theorem staged_start (source : Text) : Staged { source } where
  opened_eq_nil_iff := by simp
  elements_eq_nil _ := rfl
  elements_eq_singleton h := by cases h

/-- As long as no element comes to the top level, the last stage is not reached either. -/
theorem Staged.of_same (h : builder.Staged) (hbalanced : next.Balanced)
    (helements : next.draft.elements = builder.draft.elements)
    (hstage : next.stage = .epilog ↔ builder.stage = .epilog) : next.Staged where
  opened_eq_nil_iff := hbalanced.opened_eq_nil_iff
  elements_eq_nil hne := by
    rw [helements]
    exact h.elements_eq_nil (mt hstage.mpr hne)
  elements_eq_singleton hepilog := by
    rw [helements]
    exact h.elements_eq_singleton (hstage.mp hepilog)

/-- A token that is taken leaves the stage and the draft in accord. -/
theorem Staged.of_moves (h : builder.Staged) (hmoves : Moves builder token next) :
    next.Staged := by
  have hbalanced := h.balanced.of_moves hmoves
  cases hmoves with
  | passes => exact h
  | addsLeaf hleaf =>
      exact h.of_same hbalanced (Draft.elements_add_of_leaf (Token.name?_of_leaf? hleaf)) Iff.rfl
  | opensElement name hstage =>
      refine h.of_same hbalanced rfl ?_
      rcases hstage with hstage | hstage <;> simp [openElement, hstage]
  | addsAttribute => exact h.of_same hbalanced rfl Iff.rfl
  | endsTag hstage =>
      exact h.of_same hbalanced rfl (by simp [hstage])
  | @closesElement inner outer whole hstage hopened =>
      have hinside : builder.stage ≠ .epilog := by
        rcases hstage with hstage | hstage <;> simp [hstage]
      have hnone : builder.draft.elements = [] := h.elements_eq_nil hinside
      cases outer with
      | nil =>
          -- the root element is the first one to reach the top level
          refine ⟨hbalanced.opened_eq_nil_iff, fun hne => absurd rfl hne, fun _ => ?_⟩
          unfold Draft.elements at hnone
          rw [Draft.elements_add_top, hnone]
          exact ⟨_, rfl⟩
      | cons parent outer =>
          refine h.of_same hbalanced ?_ (by simp [stageBehind, hinside])
          exact Draft.elements_add_of_opened (List.cons_ne_nil _ _) _
  | opensSubset hstage => exact h.of_same hbalanced rfl (by simp [hstage])
  | closesSubset hstage =>
      exact h.of_same hbalanced (Draft.elements_add_of_leaf rfl) (by simp [hstage])

/-- The last stage is never left. -/
theorem Moves.stage_eq_epilog (hmoves : Moves builder token next)
    (hepilog : builder.stage = .epilog) : next.stage = .epilog := by
  cases hmoves with
  | passes | addsLeaf | addsAttribute => exact hepilog
  | opensElement name hstage | closesElement hstage =>
      rcases hstage with hstage | hstage <;> cases hstage.symm.trans hepilog
  | endsTag hstage | opensSubset hstage | closesSubset hstage =>
      cases hstage.symm.trans hepilog

/-! ## What a run keeps of the source -/

/-- The builder reads this source, and what it still has to extend is a piece of it. -/
structure HoldsSlices (source : Text) (builder : Builder) : Prop where
  source_eq : builder.source = source
  isSliceOf : ∀ first, builder.Awaits first → first.IsSliceOf source

theorem holdsSlices_start (source : Text) : HoldsSlices source { source } where
  source_eq := rfl
  isSliceOf first hfirst := by
    rcases hfirst with hstage | hopened
    · cases hstage
    · cases hopened

/-- What is to be extended was so before, or it begins with the token. -/
theorem Moves.awaits (hmoves : Moves builder token next) (hfirst : next.Awaits first) :
    builder.Awaits first ∨ first = token.span := by
  cases hmoves with
  | passes => exact .inl hfirst
  | addsLeaf =>
      rcases hfirst with hstage | hopened
      · exact .inl (.inl hstage)
      · exact .inl (.inr (Draft.map_span_opened_add _ ▸ hopened))
  | opensElement name =>
      rcases hfirst with hstage | hopened
      · cases hstage
      · rcases List.mem_cons.mp hopened with rfl | hopened
        · exact .inr rfl
        · exact .inl (.inr hopened)
  | addsAttribute attr hstage hopened =>
      rcases hfirst with hsubset | hfirst
      · exact .inl (.inl hsubset)
      · exact .inl (.inr (hopened ▸ hfirst))
  | endsTag =>
      rcases hfirst with hsubset | hfirst
      · cases hsubset
      · exact .inl (.inr hfirst)
  | @closesElement inner outer whole hstage hopened =>
      rcases hfirst with hsubset | hfirst
      · cases outer <;> cases hsubset
      · rw [Draft.map_span_opened_add] at hfirst
        refine .inl (.inr ?_)
        rw [hopened]
        exact List.mem_cons_of_mem _ hfirst
  | opensSubset =>
      rcases hfirst with hsubset | hfirst
      · exact .inr (Stage.subset.inj hsubset).symm
      · exact .inl (.inr hfirst)
  | closesSubset =>
      rcases hfirst with hsubset | hfirst
      · cases hsubset
      · exact .inl (.inr (Draft.map_span_opened_add _ ▸ hfirst))

theorem HoldsSlices.of_moves (h : HoldsSlices source builder) (hslice : token.span.IsSliceOf source)
    (hmoves : Moves builder token next) : HoldsSlices source next where
  source_eq := hmoves.source_eq.trans h.source_eq
  isSliceOf first hfirst := by
    rcases hmoves.awaits hfirst with hbefore | rfl
    · exact h.isSliceOf first hbefore
    · exact hslice

/-! ## What never goes wrong -/

/-- No token finds the stack empty that needs an open element. -/
theorem Rejects.ne_unopened (h : builder.Rejects token fault) (hstaged : builder.Staged)
    (rest : String) : fault ≠ .unexpected ("Bug;" ++ rest) := by
  intro hfault
  cases h with
  | misplaced place =>
      -- the two messages differ in their first letters
      have hletters := congrArg String.toList (ParseFault.unexpected.inj hfault)
      simp at hletters
  | unopened hstage hopened => exact hstaged.balanced.mpr hstage hopened
  | notFirst | mismatched | uncovered => cases hfault

/-- Of pieces of the source, what a token ends and the token have a span in common. -/
theorem Rejects.ne_spanOutsideSource (h : builder.Rejects token fault)
    (hholds : HoldsSlices source builder) (hslice : token.span.IsSliceOf source) :
    fault ≠ .spanOutsideSource := by
  intro hfault
  cases h with
  | @uncovered first hfirst hhull =>
      obtain ⟨whole, hwhole, _⟩ := (hholds.isSliceOf first hfirst).exists_hull? hslice
      rw [hholds.source_eq, hwhole] at hhull
      cases hhull
  | misplaced | unopened | notFirst | mismatched => cases hfault

/-- Behind every run the stage of the builder tells what its draft holds. -/
theorem Takes.staged (h : Takes options { source } tokens builder) : builder.Staged :=
  h.induct (fun _ _ _ _ hmoves hstaged => hstaged.of_moves hmoves) (staged_start source)

theorem Takes.holdsSlices (h : Takes options { source } tokens builder)
    (hslices : ∀ token ∈ tokens, token.span.IsSliceOf source) : HoldsSlices source builder :=
  h.induct (fun token htoken _ _ hmoves hholds => hholds.of_moves (hslices token htoken) hmoves)
    (holdsSlices_start source)

/-! ## How a run ends -/

variable {error? : Option SyntaxError} {error : Error} {document : Document}

/-- What goes wrong is a reason to reject a token, behind others that were taken, or it lies
in where the tokens end. -/
theorem rejects_of_build (h : build options source tokens error? = .error error)
    (hkind : error.kind = .parse fault) :
    (∃ before token after middle, tokens = before ++ token :: after ∧
      Takes options { source } before middle ∧ middle.Rejects token fault) ∨
    fault.LiesInText := by
  unfold build at h
  cases htakes : tokens.foldlM (take options) { source } with
  | error found =>
      rw [htakes] at h
      obtain rfl := Except.error.inj h
      obtain ⟨before, token, after, middle, rfl, hbefore, htake⟩ := exists_not_taken htakes
      obtain ⟨other, rfl, hrejects⟩ := rejects_of_take options middle token _ htake
      obtain rfl := ErrorKind.parse.inj hkind
      exact .inl ⟨before, token, after, middle, rfl, hbefore, hrejects⟩
  | ok builder =>
      rw [htakes] at h
      obtain ⟨span, other, rfl, hlies⟩ := liesIn_of_finish h
      obtain rfl := ErrorKind.parse.inj hkind
      exact .inr hlies

theorem ne_unopened_of_build (h : build options source tokens error? = .error error)
    (rest : String) : error.kind ≠ .parse (.unexpected ("Bug;" ++ rest)) := by
  intro hkind
  rcases rejects_of_build h hkind with
    ⟨before, token, after, middle, rfl, hbefore, hrejects⟩ | hlies
  · exact hrejects.ne_unopened hbefore.staged rest rfl
  · cases hlies

theorem ne_spanOutsideSource_of_build (h : build options source tokens error? = .error error)
    (hslices : ∀ token ∈ tokens, token.span.IsSliceOf source) :
    error.kind ≠ .parse .spanOutsideSource := by
  intro hkind
  rcases rejects_of_build h hkind with
    ⟨before, token, after, middle, rfl, hbefore, hrejects⟩ | hlies
  · have hholds : HoldsSlices source middle :=
      hbefore.holdsSlices fun other hother => hslices other (List.mem_append_left _ hother)
    exact hrejects.ne_spanOutsideSource hholds (hslices token (by simp)) rfl
  · cases hlies

/-- A document is completed in the last stage only, and where no syntax error came. -/
theorem stage_of_finish (h : builder.finish error? = .ok document) :
    error? = none ∧ builder.stage = .epilog ∧
      document = builder.draft.toDocument builder.source := by
  cases error? with
  | some error => cases hstage : builder.stage <;> simp [finish, hstage, fail] at h
  | none =>
      cases hmissing : builder.missing? with
      | some missing => simp [finish, hmissing, fail] at h
      | none =>
          simp only [finish, hmissing, Except.ok.injEq] at h
          refine ⟨rfl, ?_, h.symm⟩
          unfold missing? at hmissing
          split at hmissing
          · cases hmissing
          · assumption
          · cases hmissing
          · cases hmissing

theorem exists_root_of_build (h : build options source tokens error? = .ok document) :
    ∃ root, document.root? = some root ∧
      document.children.filter (·.name?.isSome) = [root] := by
  unfold build at h
  cases htakes : tokens.foldlM (take options) { source } with
  | error error =>
      rw [htakes] at h
      cases h
  | ok builder =>
      rw [htakes] at h
      obtain ⟨_, hepilog, rfl⟩ := stage_of_finish h
      have hstaged : builder.Staged := Takes.staged htakes
      obtain ⟨root, helements⟩ := hstaged.elements_eq_singleton hepilog
      refine ⟨root, ?_, helements⟩
      calc Document.root? (builder.draft.toDocument builder.source)
          = builder.draft.elements.head? := List.head?_filter.symm
        _ = some root := by rw [helements, List.head?_cons]

/-- Whatever tokens come, and in whatever order, the stage of the builder tells what its
draft holds as long as they are taken, and the last stage is never left.  So no error reports
an empty stack, as the messages do that begin with `Bug;`; none reports a missing span, if
the tokens are pieces of the source; and there is a result only with a root element. -/
theorem staged_of_takes (source : Text) (options : ParseOptions) :
    (∀ tokens builder, Takes options { source } tokens builder →
      builder.Staged ∧ ∀ later next, Takes options builder later next →
        builder.stage = .epilog → next.stage = .epilog) ∧
    (∀ tokens error? error, build options source tokens error? = .error error →
      (∀ rest, error.kind ≠ .parse (.unexpected ("Bug;" ++ rest))) ∧
      ((∀ token ∈ tokens, token.span.IsSliceOf source) →
        error.kind ≠ .parse .spanOutsideSource)) ∧
    ∀ tokens error? document, build options source tokens error? = .ok document →
      ∃ root, document.root? = some root ∧
        document.children.filter (·.name?.isSome) = [root] := by
  refine ⟨fun tokens builder htakes => ⟨htakes.staged, ?_⟩, fun tokens error? error hbuild => ?_,
    fun tokens error? document hbuild => exists_root_of_build hbuild⟩
  · intro later next hlater hepilog
    exact hlater.induct (fun _ _ _ _ hmoves hstage => hmoves.stage_eq_epilog hstage) hepilog
  · exact ⟨ne_unopened_of_build hbuild, ne_spanOutsideSource_of_build hbuild⟩

/-- Pieces of `<a/>` as tokens that no text is cut into: two document type declarations, and
behind the element a closing tag. -/
theorem staged_of_takes_disordered :
    ∃ (tokens later : List Token) (builder : Builder) (error : Error) (document : Document),
      (∀ token ∈ tokens ++ later, token.span.IsSliceOf "<a/>".toList) ∧
      Takes {} { source := "<a/>".toList } tokens builder ∧ builder.Staged ∧
      builder.stage = .epilog ∧
      (∃ next, Takes {} builder [.comment ⟨[], 4⟩ ⟨[], 4⟩] next ∧ next.stage = .epilog) ∧
      build {} "<a/>".toList (tokens ++ later) none = .error error ∧
      (∀ rest, error.kind ≠ .parse (.unexpected ("Bug;" ++ rest))) ∧
      error.kind ≠ .parse .spanOutsideSource ∧
      build {} "<a/>".toList tokens none = .ok document ∧
      ∃ root, document.root? = some root ∧
        document.children.filter (·.name?.isSome) = [root] := by
  obtain ⟨tokens, htokens⟩ : ∃ tokens : List Token, tokens =
      [.doctype ⟨"/>".toList, 2⟩, .subsetOpen ⟨"<a".toList, 0⟩, .subsetClose ⟨"/>".toList, 2⟩,
        .tagStart ⟨"<a".toList, 0⟩ ⟨none, ⟨"a".toList, 1⟩⟩, .emptyTagEnd ⟨"/>".toList, 2⟩] :=
    ⟨_, rfl⟩
  obtain ⟨later, hlater⟩ : ∃ later : List Token, later =
      [.closeTag ⟨"/>".toList, 2⟩ ⟨none, ⟨"a".toList, 1⟩⟩] := ⟨_, rfl⟩
  have hslices : ∀ token ∈ tokens ++ later, token.span.IsSliceOf "<a/>".toList := by
    subst htokens hlater
    simp only [List.cons_append, List.nil_append, List.forall_mem_cons]
    decide
  obtain ⟨builder, next, htakes, hepilog, hbehind⟩ : ∃ builder next,
      Takes {} { source := "<a/>".toList } tokens builder ∧ builder.stage = .epilog ∧
        Takes {} builder [.comment ⟨[], 4⟩ ⟨[], 4⟩] next := by
    subst htokens
    exact ⟨_, _, rfl, rfl, rfl⟩
  obtain ⟨error, herror⟩ : ∃ error,
      build {} "<a/>".toList (tokens ++ later) none = .error error := by
    subst htokens hlater
    exact ⟨_, rfl⟩
  obtain ⟨document, hdocument⟩ : ∃ document,
      build {} "<a/>".toList tokens none = .ok document := by
    subst htokens
    exact ⟨_, rfl⟩
  obtain ⟨hruns, herrors, hresults⟩ := staged_of_takes "<a/>".toList {}
  obtain ⟨hstaged, hstays⟩ := hruns tokens builder htakes
  obtain ⟨hopened, hcovered⟩ := herrors (tokens ++ later) none error herror
  exact ⟨tokens, later, builder, error, document, hslices, htakes, hstaged, hepilog,
    ⟨next, hbehind, hstays _ next hbehind hepilog⟩, herror, hopened, hcovered hslices, hdocument,
    hresults tokens none document hdocument⟩

end Builder

end XmlOutline
