import XmlOutline.Proofs.Derivation.Soundness

/-!
# Extents

The extent of a node is the piece of source that the node was read from, markers
included.  Only for a comment this is more than its span.

Siblings abut if the extent of each starts where the one before ends
(`Node.Abut`); they stand apart if there may be spaces before, between and behind
them (`Node.Apart`).  An element is tiled if its span is a start tag, its children
abutting, and a closing tag, with nothing else (`Node.ElementTiled`).

If text is left out, children no longer abut, but runs of character data and markup
still do, one in turn with the other (`Node.Woven`).  A run between two pieces of markup
may be empty, so there is one more of them than of markup.  Where all text is kept, this
comes to abutting (`Node.Woven.abut`).
-/

namespace XmlOutline

namespace Text

/-- Between the two offsets the source holds spaces, or nothing. -/
def IsGap (source : Text) (start stop : Nat) : Prop :=
  ∃ gap : Text, gap.IsSpaces ∧ source.slice? start stop = some gap

theorem IsGap.trans {source : Text} {start middle stop : Nat} (hfirst : IsGap source start middle)
    (hsecond : IsGap source middle stop) : IsGap source start stop := by
  obtain ⟨first, hfirst, hslice⟩ := hfirst
  obtain ⟨second, hsecond, hslice'⟩ := hsecond
  obtain ⟨between, hbetween, hwhole⟩ := exists_slice?_eq_append hslice hslice' (Nat.le_refl _)
  have hnil : between = [] := by
    obtain ⟨_, _, _, _, hsize⟩ := slice?_eq_some_iff.mp hbetween
    exact size_eq_zero_iff.mp (by omega)
  subst hnil
  refine ⟨_, fun c hc => ?_, hwhole⟩
  rcases List.mem_append.mp hc with hc | hc
  · exact hfirst c (by simpa using hc)
  · exact hsecond c hc

/-- Of two slices with the same start, the longer one begins with the shorter one. -/
theorem isPrefix_of_slice? {source first whole : Text} {start middle stop : Nat}
    (hfirst : source.slice? start middle = some first)
    (hwhole : source.slice? start stop = some whole) (horder : middle ≤ stop) :
    first <+: whole := by
  obtain ⟨before, after, hsource, hsize, hmiddle⟩ := slice?_eq_some_iff.mp hfirst
  obtain ⟨before', after', hsource', hsize', hstop⟩ := slice?_eq_some_iff.mp hwhole
  have hdrop : dropSize? start source = some (first ++ after) :=
    dropSize?_eq_some_iff.mpr ⟨before, by rw [hsource, List.append_assoc], hsize⟩
  have hdrop' : dropSize? start source = some (whole ++ after') :=
    dropSize?_eq_some_iff.mpr ⟨before', by rw [hsource', List.append_assoc], hsize'⟩
  have hsame : first ++ after = whole ++ after' := Option.some.inj (hdrop.symm.trans hdrop')
  obtain ⟨between, hbetween⟩ := exists_eq_append_of_size_le hsame (by omega)
  exact ⟨between, hbetween.symm⟩

/-- Up to this offset there are at most a byte order mark and a declaration. -/
def IsLead (source : Text) (here : Nat) : Prop :=
  ∃ mark declaration : Text, (mark = [] ∨ mark = ['\uFEFF']) ∧
    (declaration = [] ∨ declaration.IsDeclaration) ∧
    source.slice? 0 here = some (mark ++ declaration)

/-- The attributes as they are written, each with spaces before it. -/
inductive IsAttributeList : List Attribute → Text → Prop where
  | nil : IsAttributeList [] []
  | cons {gap rest : Text} (attr : Attribute) {attributes : List Attribute}
      (hgap : gap.IsSpaces) (hrest : IsAttributeList attributes rest) :
      IsAttributeList (attr :: attributes) (gap ++ attr.span.text ++ rest)

/-- `<name attribute … >` -/
def IsStartTag (name : Name) (attributes : List Attribute) (word : Text) : Prop :=
  ∃ (raw items gap : Text) (offset : Nat), raw.IsNameChars ∧
    Name.ofQualified? ⟨raw, offset⟩ = some name ∧ IsAttributeList attributes items ∧
    gap.IsSpaces ∧ word = "<".toList ++ raw ++ items ++ gap ++ ">".toList

/-- `<name attribute … />` -/
def IsEmptyTag (name : Name) (attributes : List Attribute) (word : Text) : Prop :=
  ∃ (raw items gap : Text) (offset : Nat), raw.IsNameChars ∧
    Name.ofQualified? ⟨raw, offset⟩ = some name ∧ IsAttributeList attributes items ∧
    gap.IsSpaces ∧ word = "<".toList ++ raw ++ items ++ gap ++ "/>".toList

/-- `</closing >`, where the closing name is the given one. -/
def IsClosingTag (name : Name) (word : Text) : Prop :=
  ∃ (raw gap : Text) (offset : Nat) (closing : Name), raw.IsNameChars ∧
    Name.ofQualified? ⟨raw, offset⟩ = some closing ∧ (name == closing) = true ∧
    gap.IsSpaces ∧ word = "</".toList ++ raw ++ gap ++ ">".toList

end Text

namespace Node

/-- What the node was read from.  The span of a comment lacks its markers. -/
def extent : Node → Span
  | comment content => ⟨"<!--".toList ++ content.text ++ "-->".toList, content.start - 4⟩
  | node => node.span

/-- The extent of the node is what the source holds there. -/
structure InPlace (source : Text) (node : Node) : Prop where
  isSliceOf : node.extent.IsSliceOf source
  /-- There is room for the marker that opens a comment. -/
  comment_start : ∀ content, node = .comment content → 4 ≤ content.start

/-- The nodes follow directly on one another, from the one offset to the other. -/
inductive Abut (source : Text) : Nat → List Node → Nat → Prop where
  | nil (here : Nat) : Abut source here [] here
  | cons {node : Node} {rest : List Node} {stop : Nat} (hplace : node.InPlace source)
      (hrest : Abut source node.extent.stop rest stop) :
      Abut source node.extent.start (node :: rest) stop

/-- From the one offset to the other there are these nodes in turn, and spaces. -/
inductive Apart (source : Text) : Nat → List Node → Nat → Prop where
  | nil {here stop : Nat} (hgap : source.IsGap here stop) : Apart source here [] stop
  | cons {node : Node} {rest : List Node} {here stop : Nat}
      (hgap : source.IsGap here node.extent.start) (hplace : node.InPlace source)
      (hrest : Apart source node.extent.stop rest stop) : Apart source here (node :: rest) stop

/-- A run of character data starts here. -/
structure IsRun (source : Text) (here : Nat) (run : Span) : Prop where
  start_eq : run.start = here
  isSliceOf : run.IsSliceOf source
  no_markup : '<' ∉ run.text

/-- A run becomes a text of its own if it is kept, and else nothing. -/
def ofRun (options : ParseOptions) (run : Span) : List Node :=
  if run.text ≠ [] ∧ options.Keeps run then [text run run] else []

/-- From the one offset to the other there are these runs of character data, possibly
empty, with a piece of markup between one and the next.  Every piece of markup is one of
the nodes, and the others are what the runs become. -/
inductive Woven (source : Text) (options : ParseOptions) :
    Nat → List Span → List Node → Nat → Prop where
  | last {here : Nat} {run : Span} (hrun : IsRun source here run) :
      Woven source options here [run] (ofRun options run) run.stop
  | cons {here : Nat} {run : Span} {node : Node} {runs : List Span} {nodes : List Node}
      {stop : Nat} (hrun : IsRun source here run) (hplace : node.InPlace source)
      (hmarkup : node.extent.text.head? = some '<') (hstart : node.extent.start = run.stop)
      (hrest : Woven source options node.extent.stop runs nodes stop) :
      Woven source options here (run :: runs) (ofRun options run ++ node :: nodes) stop

/-- The span of an element is an empty tag, or it is its start tag, runs of character data
and the children that are markup, and its closing tag. -/
inductive ElementWoven (source : Text) (options : ParseOptions) (span : Span) (name : Name)
    (attributes : List Attribute) : List Span → List Node → Prop where
  | empty (htag : span.text.IsEmptyTag name attributes) :
      ElementWoven source options span name attributes [] []
  | closed {opened closed : Nat} {startTag closingTag : Text} {runs : List Span}
      {children : List Node} (hopened : source.slice? span.start opened = some startTag)
      (hstartTag : startTag.IsStartTag name attributes)
      (hwoven : Woven source options opened runs children closed)
      (hclosed : source.slice? closed span.stop = some closingTag)
      (hclosingTag : closingTag.IsClosingTag name) :
      ElementWoven source options span name attributes runs children

/-- If the node is an element, runs and markup are woven in it. -/
def IsWoven (source : Text) (options : ParseOptions) : Node → Prop
  | element span name attributes children =>
      ∃ runs, ElementWoven source options span name attributes runs children
  | _ => True

/-- The span of an element is its start tag, its children and its closing tag. -/
def ElementTiled (source : Text) (span : Span) (name : Name) (attributes : List Attribute)
    (children : List Node) : Prop :=
  ∃ (opened closed : Nat) (startTag closingTag : Text),
    source.slice? span.start opened = some startTag ∧ startTag.IsStartTag name attributes ∧
    Abut source opened children closed ∧
    source.slice? closed span.stop = some closingTag ∧ closingTag.IsClosingTag name

/-- If the node is an element with children, it is tiled. -/
def Tiled (source : Text) : Node → Prop
  | element span name attributes children =>
      children ≠ [] → ElementTiled source span name attributes children
  | _ => True

variable {source : Text} {here middle stop : Nat} {node : Node} {nodes nodes' : List Node}

theorem Apart.trans (hfirst : Apart source here nodes middle)
    (hsecond : Apart source middle nodes' stop) : Apart source here (nodes ++ nodes') stop := by
  induction hfirst with
  | nil hgap =>
      cases hsecond with
      | nil hgap' => exact .nil (hgap.trans hgap')
      | cons hgap' hplace hrest => exact .cons (hgap.trans hgap') hplace hrest
  | cons hgap hplace _ ih => exact .cons hgap hplace (ih hsecond)

/-! ## Runs and markup in turn -/

section

variable {options : ParseOptions} {run : Span} {runs : List Span}

theorem isRun_nil (hslice : (⟨[], here⟩ : Span).IsSliceOf source) :
    IsRun source here ⟨[], here⟩ :=
  ⟨rfl, hslice, List.not_mem_nil⟩

/-- Where markup follows or the source ends, a run is empty. -/
theorem IsRun.eq_nil {cursor : Cursor} (hrun : IsRun source cursor.offset run)
    (hin : cursor.In source) (hbehind : cursor.rest = [] ∨ cursor.rest.head? = some '<') :
    run = ⟨[], cursor.offset⟩ := by
  obtain ⟨before, after, hsource, hsize, _⟩ := Text.slice?_eq_some_iff.mp hrun.isSliceOf
  have hdrop : Text.dropSize? cursor.offset source = some (run.text ++ after) := by
    refine Text.dropSize?_eq_some_iff.mpr ⟨before, ?_, ?_⟩
    · rw [hsource, List.append_assoc]
    · rw [hsize, hrun.start_eq]
  have hrest : cursor.rest = run.text ++ after :=
    Option.some.inj (hin.dropSize?_eq.symm.trans hdrop)
  have htext : run.text = [] := by
    cases htext : run.text with
    | nil => rfl
    | cons c word =>
        rw [htext, List.cons_append] at hrest
        rcases hbehind with hnil | hmarkup
        · rw [hnil] at hrest
          cases hrest
        · rw [hrest] at hmarkup
          obtain rfl := Option.some.inj hmarkup
          exact absurd (by simp [htext]) hrun.no_markup
  cases run
  cases htext
  cases hrun.start_eq
  rfl

theorem ofRun_of_keeps (hne : run.text ≠ []) (hkeeps : options.Keeps run) :
    ofRun options run = [text run run] := if_pos ⟨hne, hkeeps⟩

theorem ofRun_of_not_keeps (hkeeps : ¬options.Keeps run) : ofRun options run = [] :=
  if_neg fun h => hkeeps h.2

/-- A run before a place where none starts. -/
theorem Woven.prepend (hrun : IsRun source here run)
    (hnone : ∀ first, IsRun source run.stop first → first = ⟨[], run.stop⟩)
    (h : Woven source options run.stop runs nodes stop) :
    ∃ runs, Woven source options here runs (ofRun options run ++ nodes) stop := by
  cases h with
  | last hfirst =>
      obtain rfl := hnone _ hfirst
      show ∃ runs, Woven source options here runs (ofRun options run ++ []) run.stop
      rw [List.append_nil]
      exact ⟨_, .last hrun⟩
  | cons hfirst hplace hmarkup hstart hrest =>
      obtain rfl := hnone _ hfirst
      exact ⟨_, .cons hrun hplace hmarkup hstart hrest⟩

/-- A run that is kept is one of the nodes. -/
theorem Woven.text_mem (h : Woven source options here runs nodes stop) (hmem : run ∈ runs)
    (hne : run.text ≠ []) (hkeeps : options.Keeps run) : .text run run ∈ nodes := by
  have hkept : text run run ∈ ofRun options run := by
    rw [ofRun_of_keeps hne hkeeps]
    exact List.mem_singleton_self _
  induction h with
  | last =>
      obtain rfl := List.mem_singleton.mp hmem
      exact hkept
  | cons _ _ _ _ _ ih =>
      rcases List.mem_cons.mp hmem with rfl | hmem
      · exact List.mem_append_left _ hkept
      · exact List.mem_append_right _ (List.mem_cons_of_mem _ (ih hmem))

/-- Where all text is kept, a run leaves no gap. -/
theorem IsRun.abut (hrun : IsRun source here run) (hkeep : options.keepWhitespace = true)
    (hrest : Abut source run.stop nodes stop) :
    Abut source here (ofRun options run ++ nodes) stop := by
  by_cases hne : run.text = []
  · have hstop : run.stop = here := by
      rw [Span.stop, Span.size, hne, hrun.start_eq]
      rfl
    rw [ofRun, if_neg fun h => h.1 hne]
    exact hstop ▸ hrest
  · rw [ofRun_of_keeps hne (.inl hkeep), ← hrun.start_eq]
    show Abut source (text run run).extent.start (text run run :: nodes) stop
    exact .cons ⟨hrun.isSliceOf, fun _ hcomment => Node.noConfusion hcomment⟩ hrest

theorem Woven.abut (h : Woven source options here runs nodes stop)
    (hkeep : options.keepWhitespace = true) : Abut source here nodes stop := by
  induction h with
  | last hrun => simpa using hrun.abut hkeep (.nil _)
  | cons hrun hplace _ hstart _ ih =>
      refine hrun.abut hkeep ?_
      rw [← hstart]
      exact .cons hplace ih

/-- Where all text is kept, an element in which runs and markup are woven is tiled. -/
theorem IsWoven.tiled (hkeep : options.keepWhitespace = true)
    (h : node.IsWoven source options) : node.Tiled source := by
  cases node with
  | element span name attributes children =>
      intro hne
      obtain ⟨runs, h⟩ := h
      cases h with
      | empty => exact absurd rfl hne
      | closed hopened hstartTag hwoven hclosed hclosingTag =>
          exact ⟨_, _, _, _, hopened, hstartTag, hwoven.abut hkeep, hclosed, hclosingTag⟩
  | _ => trivial

end

end Node

end XmlOutline
