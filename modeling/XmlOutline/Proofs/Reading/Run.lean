import XmlOutline.Proofs.Reading.Spelling

/-!
# Runs of a token stream

`TokenStream.tokens` is a recursion that ends with the text.  Here its result is
taken apart into steps: `TokenStream.Yields` says that certain tokens are read in
turn from one place to another, with `TokenStream.Skips` for what lies between
them and leaves no token.  `tokens_eq_iff` ties the two together.

A run can be cut between any two of its tokens (`yields_append_iff`).  Inside an
element nothing is skipped (`Skips.eq_of_inside`), so there each token follows
directly on the one before.

Main statement: the tokens of a text are spelled, and their spans are slices of
the text that follow one another (`Token.placed_of_ofSource`).
-/

namespace XmlOutline

/-! ## Places in a source -/

namespace Cursor

/-- The cursor is what reading the source from its start can lead to. -/
def In (source : Text) (cursor : Cursor) : Prop :=
  ∃ word : Text, ({ rest := source } : Cursor).Reads word cursor

variable {source word : Text} {start stop : Cursor}

theorem In.of_reads (hstart : start.In source) (hreads : start.Reads word stop) :
    stop.In source := by
  obtain ⟨before, hbefore⟩ := hstart
  exact ⟨_, hbefore.trans hreads⟩

/-- What is read is a slice of the source. -/
theorem In.slice?_eq (hstart : start.In source) (hreads : start.Reads word stop) :
    source.slice? start.offset stop.offset = some word := by
  obtain ⟨before, hbefore⟩ := hstart
  have hoffset : start.offset = Text.size before := by
    rw [hbefore.offset_eq]
    exact Nat.zero_add _
  refine Text.slice?_eq_some_iff.mpr ⟨before, stop.rest, ?_, hoffset.symm, ?_⟩
  · have hsource : source = before ++ start.rest := hbefore.rest_eq
    rw [hsource, hreads.rest_eq, List.append_assoc]
  · rw [hreads.offset_eq, hoffset]

/-- Behind what was read there is the rest. -/
theorem In.dropSize?_eq (h : start.In source) :
    Text.dropSize? start.offset source = some start.rest := by
  obtain ⟨word, hreads⟩ := h
  refine Text.dropSize?_eq_some_iff.mpr ⟨word, hreads.rest_eq, ?_⟩
  rw [hreads.offset_eq]
  exact (Nat.zero_add _).symm

theorem In.isSliceOf (hstart : start.In source) (hreads : start.Reads word stop) :
    (⟨word, start.offset⟩ : Span).IsSliceOf source := by
  show source.slice? start.offset (start.offset + word.size) = some word
  rw [← hreads.offset_eq]
  exact hstart.slice?_eq hreads

end Cursor

namespace TokenStream

/-! ## Steps in turn -/

/-- From one place to another no step leaves a token. -/
inductive Skips : TokenStream → TokenStream → Prop where
  | refl (stream : TokenStream) : Skips stream stream
  | step {start next stop : TokenStream} (hrest : start.cursor.rest ≠ [])
      (hstep : start.step = .ok (none, next)) (hskips : Skips next stop) : Skips start stop

/-- From one place to another these tokens are read in turn. -/
inductive Yields : TokenStream → List Token → TokenStream → Prop where
  | nil (stream : TokenStream) : Yields stream [] stream
  | cons {start found next stop : TokenStream} {token : Token} {tokens : List Token}
      (hskips : Skips start found) (hrest : found.cursor.rest ≠ [])
      (hstep : found.step = .ok (some token, next)) (hyields : Yields next tokens stop) :
      Yields start (token :: tokens) stop

/-- Here the text ends, or nothing can be read because of the given error. -/
def EndsWith (stream : TokenStream) : Option SyntaxError → Prop
  | none => stream.cursor.rest = []
  | some error => stream.cursor.rest ≠ [] ∧ stream.step = .error error

variable {start stop next : TokenStream} {tokens : List Token} {error? : Option SyntaxError}

theorem tokens_of_endsWith (h : start.EndsWith error?) : start.tokens = ([], error?) := by
  cases error? with
  | none =>
      have hrest : start.cursor.rest = [] := h
      rw [TokenStream.tokens, dif_pos hrest]
  | some error =>
      rw [TokenStream.tokens, dif_neg h.1]
      split
      · rename_i found hfound
        rw [h.2] at hfound
        cases hfound
        rfl
      · rename_i hfound
        rw [h.2] at hfound
        cases hfound

theorem tokens_of_step {token? : Option Token} (hrest : start.cursor.rest ≠ [])
    (hstep : start.step = .ok (token?, next)) :
    start.tokens = (token?.toList ++ next.tokens.1, next.tokens.2) := by
  rw [TokenStream.tokens, dif_neg hrest]
  split
  · rename_i hfound
    rw [hstep] at hfound
    cases hfound
  · rename_i hfound
    rw [hstep] at hfound
    cases hfound
    rfl

theorem Skips.tokens_eq (h : Skips start stop) : start.tokens = stop.tokens := by
  induction h with
  | refl => rfl
  | step hrest hstep _ ih =>
      rw [tokens_of_step hrest hstep, ← ih]
      rfl

/-- The tokens of a stream are those that are read in turn until the text ends or
nothing can be read. -/
theorem tokens_eq_iff :
    start.tokens = (tokens, error?) ↔
      ∃ last stop, Yields start tokens last ∧ Skips last stop ∧ stop.EndsWith error? := by
  constructor
  · -- by induction on the text that is left, which every step shortens
    generalize hlength : start.cursor.rest.length = length
    induction length using Nat.strongRecOn generalizing start tokens error? with
    | ind length ih =>
        intro htokens
        by_cases hrest : start.cursor.rest = []
        · have hends : start.EndsWith none := hrest
          rw [tokens_of_endsWith hends] at htokens
          cases htokens
          exact ⟨start, start, .nil start, .refl start, hends⟩
        cases hstep : start.step with
        | error error =>
            have hends : start.EndsWith (some error) := ⟨hrest, hstep⟩
            rw [tokens_of_endsWith hends] at htokens
            cases htokens
            exact ⟨start, start, .nil start, .refl start, hends⟩
        | ok result =>
            obtain ⟨token?, next⟩ := result
            have hshorter := length_lt_of_step hrest hstep
            rw [tokens_of_step hrest hstep] at htokens
            obtain ⟨last, stop, hyields, hskips, hends⟩ :=
              ih _ (hlength ▸ hshorter) rfl (Prod.eta next.tokens).symm
            cases htokens
            -- a step without a token goes in front of what is skipped next
            cases token? with
            | some token =>
                exact ⟨last, stop, .cons (.refl start) hrest hstep hyields, hskips, hends⟩
            | none =>
                show ∃ last stop, Yields start next.tokens.1 last ∧ _
                generalize next.tokens.1 = later at hyields
                cases hyields with
                | nil => exact ⟨start, stop, .nil start, .step hrest hstep hskips, hends⟩
                | cons hskips' hrest' hstep' hyields =>
                    exact ⟨last, stop, .cons (.step hrest hstep hskips') hrest' hstep' hyields,
                      hskips, hends⟩
  · intro h
    obtain ⟨last, stop, hyields, hskips, hends⟩ := h
    induction hyields with
    | nil => rw [hskips.tokens_eq, tokens_of_endsWith hends]
    | cons hskips' hrest hstep _ ih =>
        rw [hskips'.tokens_eq, tokens_of_step hrest hstep, ih hskips]
        rfl

/-- A run can be cut between any two of its tokens. -/
theorem yields_append_iff {first second : List Token} :
    Yields start (first ++ second) stop ↔
      ∃ middle, Yields start first middle ∧ Yields middle second stop := by
  induction first generalizing start with
  | nil =>
      constructor
      · intro h
        exact ⟨start, .nil start, h⟩
      · intro h
        obtain ⟨_, hnil, hsecond⟩ := h
        cases hnil
        exact hsecond
  | cons token first ih =>
      constructor
      · intro h
        cases h with
        | cons hskips hrest hstep hyields =>
            obtain ⟨middle, hfirst, hsecond⟩ := ih.mp hyields
            exact ⟨middle, .cons hskips hrest hstep hfirst, hsecond⟩
      · intro h
        obtain ⟨middle, hfirst, hsecond⟩ := h
        cases hfirst with
        | cons hskips hrest hstep hfirst =>
            exact .cons hskips hrest hstep (ih.mpr ⟨middle, hfirst, hsecond⟩)

/-! ## What is skipped -/

/-- Inside an element nothing is skipped. -/
theorem Skips.eq_of_inside (h : Skips start stop)
    (hregion : start.region = .content ∨ start.region = .tag) : stop = start := by
  cases h with
  | refl => rfl
  | step _ hstep _ =>
      obtain ⟨hcontent, htag, _⟩ := skipped_of_step hstep
      rcases hregion with hregion | hregion
      · exact absurd hregion hcontent
      · exact absurd hregion htag

/-- Skipping reads some text and leaves the region and the depth, but for the very
start. -/
theorem Skips.reads (h : Skips start stop) :
    (∃ word : Text, start.cursor.Reads word stop.cursor ∧
        (word.IsSpaces ∨ start.region = .subset)) ∧
      (stop = start ∨
        stop.region = if start.region = .start then .beforeDoctype else start.region) ∧
      stop.depth = start.depth := by
  induction h with
  | refl start => exact ⟨⟨[], .refl _, Or.inl Text.isSpaces_nil⟩, Or.inl rfl, rfl⟩
  | @step start next stop _ hstep _ ih =>
      obtain ⟨_, _, word, hreads, hword⟩ := skipped_of_step hstep
      obtain ⟨_, _, _, hfollowing⟩ := step_eq_ok_iff.mp hstep
      obtain ⟨hregion, hdepth⟩ := Prod.ext_iff.mp hfollowing
      simp only [following] at hregion hdepth
      obtain ⟨⟨later, hreads', hlater⟩, hregion', hdepth'⟩ := ih
      refine ⟨⟨word ++ later, hreads.trans hreads', ?_⟩, Or.inr ?_, by rw [hdepth', hdepth]⟩
      · by_cases hsubset : start.region = .subset
        · exact Or.inr hsubset
        refine Or.inl fun c hc => ?_
        have hnext : next.region ≠ .subset := by
          rw [← hregion]
          split
          · decide
          · exact hsubset
        rcases List.mem_append.mp hc with hc | hc
        · exact hword.resolve_right hsubset c hc
        · exact hlater.resolve_right hnext c hc
      · rcases hregion' with rfl | hregion'
        · exact hregion.symm
        · rw [hregion', ← hregion]
          grind

end TokenStream

/-! ## Tokens in a source -/

/-- The spans of the tokens are slices of the source that follow one another. -/
structure Token.Placed (source : Text) (tokens : List Token) : Prop where
  isSliceOf : ∀ token ∈ tokens, token.span.IsSliceOf source
  inOrder : tokens.Pairwise fun first second => first.span.stop ≤ second.span.start

/-- No character of a name follows on the span. -/
def Span.EndsName (span : Span) (source : Text) : Prop :=
  ∃ rest, Text.dropSize? span.stop source = some rest ∧
    rest.head?.any CharClass.isNameChar = false

namespace TokenStream

variable {source : Text} {start next stop : TokenStream} {token : Token} {tokens : List Token}

/-- The token that a step yields is a slice of the source, and the last that the
step reads. -/
theorem placed_of_step (hin : start.cursor.In source) (hrest : start.cursor.rest ≠ [])
    (hstep : start.step = .ok (some token, next)) :
    token.span.IsSliceOf source ∧ start.cursor.offset ≤ token.span.start ∧
      token.span.stop = next.cursor.offset ∧ next.cursor.In source := by
  obtain ⟨_, _, gap, _, hreads, hstart, _⟩ := spelled_of_step hrest hstep
  obtain ⟨middle, hgap, hword⟩ := Cursor.reads_append_iff.mp hreads
  have hmiddle : token.span = ⟨token.span.text, middle.offset⟩ := by
    rw [hgap.offset_eq, ← hstart]
  refine ⟨?_, by omega, ?_, hin.of_reads hreads⟩
  · rw [hmiddle]
    exact (hin.of_reads hgap).isSliceOf hword
  · rw [hmiddle, hword.offset_eq]
    rfl

theorem Skips.in (h : Skips start stop) (hin : start.cursor.In source) :
    stop.cursor.In source ∧ start.cursor.offset ≤ stop.cursor.offset := by
  obtain ⟨⟨word, hreads, _⟩, _⟩ := h.reads
  exact ⟨hin.of_reads hreads, by rw [hreads.offset_eq]; omega⟩

theorem Yields.placed (h : Yields start tokens stop) (hin : start.cursor.In source) :
    Token.Placed source tokens ∧ (∀ token ∈ tokens, start.cursor.offset ≤ token.span.start) ∧
      stop.cursor.In source := by
  induction h with
  | nil => exact ⟨⟨by simp, .nil⟩, by simp, hin⟩
  | @cons start found next stop token tokens hskips hrest hstep _ ih =>
      obtain ⟨hin, hfound⟩ := hskips.in hin
      obtain ⟨hslice, hbefore, hstop, hin⟩ := placed_of_step hin hrest hstep
      obtain ⟨⟨hslices, hpairs⟩, hlater, hin⟩ := ih hin
      refine ⟨⟨?_, ?_⟩, ?_, hin⟩
      · intro other hother
        rcases List.mem_cons.mp hother with rfl | hother
        · exact hslice
        · exact hslices other hother
      · refine List.pairwise_cons.mpr ⟨fun other hother => ?_, hpairs⟩
        have := hlater other hother
        omega
      · intro other hother
        rcases List.mem_cons.mp hother with rfl | hother
        · omega
        · have := hlater other hother
          have : token.span.start ≤ token.span.stop := Nat.le_add_right _ _
          omega

theorem Yields.spelled (h : Yields start tokens stop) :
    ∀ token ∈ tokens, token.Spelled := by
  induction h with
  | nil => simp
  | cons _ hrest hstep _ ih =>
      intro other hother
      rcases List.mem_cons.mp hother with rfl | hother
      · exact (spelled_of_step hrest hstep).1
      · exact ih other hother

/-- A start tag begins with all of its name. -/
theorem Yields.endsName (h : Yields start tokens stop) (hin : start.cursor.In source)
    {first : Span} {name : Name} (htoken : Token.tagStart first name ∈ tokens) :
    first.EndsName source := by
  induction h with
  | nil => cases htoken
  | cons hskips hrest hstep _ ih =>
      obtain ⟨_, _, hstop, hnext⟩ := placed_of_step (hskips.in hin).1 hrest hstep
      rcases List.mem_cons.mp htoken with rfl | htoken
      · refine ⟨_, ?_, behind_tagStart_of_step hrest hstep⟩
        have hspan : first.stop = _ := hstop
        rw [hspan]
        exact hnext.dropSize?_eq
      · exact ih hnext htoken

/-! ## The start of a text -/

/-- At the start at most a byte order mark is passed over. -/
theorem ofSource_reads (source : Text) :
    ∃ mark : Text, (mark = [] ∨ mark = ['\uFEFF']) ∧
      ({ rest := source } : Cursor).Reads mark (ofSource source).cursor := by
  unfold ofSource
  split
  · exact ⟨_, Or.inr rfl, Cursor.reads_past rfl⟩
  · exact ⟨[], Or.inl rfl, Cursor.Reads.refl _⟩

theorem ofSource_region (source : Text) :
    (ofSource source).region = .start ∧ (ofSource source).depth = 0 := by
  unfold ofSource
  split <;> exact ⟨rfl, rfl⟩

theorem ofSource_in (source : Text) : (ofSource source).cursor.In source := by
  obtain ⟨mark, _, hreads⟩ := ofSource_reads source
  exact ⟨mark, hreads⟩

end TokenStream

/-- The tokens of a text are spelled, and their spans are slices of the text that
follow one another. -/
theorem Token.placed_of_ofSource {source : Text} {tokens : List Token}
    {error? : Option SyntaxError} (h : Token.ofSource source = (tokens, error?)) :
    Token.Placed source tokens ∧ ∀ token ∈ tokens, token.Spelled := by
  obtain ⟨_, _, hyields, _, _⟩ := TokenStream.tokens_eq_iff.mp h
  exact ⟨(hyields.placed (TokenStream.ofSource_in source)).1, hyields.spelled⟩

end XmlOutline
