import XmlOutline.Proofs.Derivation.Moves
import XmlOutline.Proofs.Derivation.Slices
import XmlOutline.Proofs.Positions.Offsets
import Mathlib.Data.List.Basic

/-!
# Where errors point

An error of the parser has a span, and the span comes from one of three places.  A token
that is not taken is an error at its own span (`Builder.failsWith_take`).  Where the tokens
end too early, the error is at a token that was taken and opened something, or, if nothing
is open, at the end of the source (`Builder.located_of_finish`).

The spans of tokens are slices of the source, and never empty, so they begin at a code
point and have its position (`Span.IsSliceOf.pointsInto`).  The end of the source is given
as its last byte.  That is where the last code point starts only if this takes one byte;
otherwise the span is no slice, and its position is the one behind the source
(`Span.pointsInto_or_strays`).

Main statement: `Document.pointsInto_of_parse`.
-/

namespace XmlOutline

variable {source : Text} {options : ParseOptions} {tokens : List Token} {token : Token}
  {span : Span} {error : Error}

/-! ## Pointing into a source -/

/-- The span is a piece of the source, and unless this is empty, the span starts at one of
its code points and has its row and its column. -/
structure Span.PointsInto (span : Span) (source : Text) : Prop where
  isSliceOf : span.IsSliceOf source
  stop_le : span.stop ≤ source.size
  position : source ≠ [] → ∃ (before : Text) (c : Char) (rest : Text),
    source = before ++ c :: rest ∧ before.size = span.start ∧
      (span.position source).row = before.count '\n' + 1 ∧
      (span.position source).column = (before.reverse.takeWhile (· != '\n')).length + 1

namespace Span

theorem pointsInto_of_isStart (hslice : span.IsSliceOf source)
    (hstart : source ≠ [] → Position.IsStart source span.start) : span.PointsInto source where
  isSliceOf := hslice
  stop_le := hslice.stop_le_size
  position hne := by
    obtain ⟨before, c, rest, rfl, hsize⟩ := hstart hne
    have hposition : span.position (before ++ c :: rest) = Position.first.after before := by
      rw [Span.position, ← hsize, Position.ofOffset_size]
    refine ⟨before, c, rest, rfl, hsize, ?_, ?_⟩
    · rw [hposition, Position.row_after, Nat.add_comm]
      rfl
    · rw [hposition, Position.column_after_first]

/-- A slice that is not empty starts at a code point. -/
theorem IsSliceOf.pointsInto (hslice : span.IsSliceOf source) (hne : span.text ≠ []) :
    span.PointsInto source := by
  refine pointsInto_of_isStart hslice fun _ => ?_
  obtain ⟨before, rest, hsource, hsize, _⟩ := Text.slice?_eq_some_iff.mp hslice
  obtain ⟨c, word, hword⟩ := List.exists_cons_of_ne_nil hne
  exact ⟨before, c, word ++ rest, by simp [hsource, hword], hsize⟩

/-- The span that marks the end points into the source, unless the last code point takes
more than one byte. -/
theorem pointsInto_endOf (h : ∀ c ∈ source.getLast?, c.utf8Size ≤ 1) :
    (endOf source).PointsInto source := by
  rcases List.eq_nil_or_concat' source with rfl | ⟨before, c, rfl⟩
  · exact pointsInto_of_isStart rfl fun hne => absurd rfl hne
  · have hc : c.utf8Size = 1 := by
      have := c.utf8Size_pos
      have := h c (by simp)
      omega
    have hstart : Text.size before = (endOf (before ++ [c])).start := by
      simp [endOf, hc]
    refine pointsInto_of_isStart ?_ fun _ => ⟨before, c, [], rfl, hstart⟩
    exact Text.slice?_eq_some_iff.mpr ⟨before, [c], by simp [endOf], hstart, by
      simp [stop, size, endOf, hc]⟩

/-- If the last code point takes more than one byte, the mark of the end lies inside it:
the span is no slice, and its position is the one behind the source. -/
theorem strays_endOf (before : Text) {c : Char} (h : 1 < c.utf8Size) :
    ¬ (endOf (before ++ [c])).IsSliceOf (before ++ [c]) ∧
      (endOf (before ++ [c])).position (before ++ [c]) =
        Position.first.after (before ++ [c]) := by
  have hstart : (endOf (before ++ [c])).start = before.size + c.utf8Size - 1 := by
    simp [endOf]
  have hinside : ∀ front rest : Text, before ++ [c] = front ++ rest →
      front.size ≠ (endOf (before ++ [c])).start := by
    intro front rest hsplit hsize
    rcases List.eq_nil_or_concat' rest with rfl | ⟨middle, d, rfl⟩
    · -- behind the last code point
      rw [List.append_nil] at hsplit
      rw [← hsplit, Text.size_append, hstart] at hsize
      simp only [Text.size_cons, Text.size_nil] at hsize
      omega
    · -- before it
      rw [← List.append_assoc] at hsplit
      obtain ⟨rfl, _⟩ := List.append_inj' hsplit rfl
      rw [hstart, Text.size_append] at hsize
      omega
  constructor
  · intro hslice
    obtain ⟨front, rest, hsource, hsize, _⟩ := Text.slice?_eq_some_iff.mp hslice
    exact hinside front rest (by simpa [endOf] using hsource) hsize
  · refine Position.ofOffset_of_not_start fun hfound => ?_
    obtain ⟨front, d, rest, hsource, hsize⟩ := hfound
    exact hinside front (d :: rest) hsource hsize

theorem pointsInto_or_strays (source : Text) :
    (endOf source).PointsInto source ∨
      ∃ before c, source = before ++ [c] ∧ 1 < c.utf8Size ∧
        ¬ (endOf source).IsSliceOf source ∧
        (endOf source).position source = Position.first.after source := by
  by_cases hwide : ∀ c ∈ source.getLast?, c.utf8Size ≤ 1
  · exact .inl (pointsInto_endOf hwide)
  · rcases List.eq_nil_or_concat' source with rfl | ⟨before, c, rfl⟩
    · exact absurd (by simp) hwide
    · have hc : 1 < c.utf8Size := by simpa using hwide
      exact .inr ⟨before, c, rfl, hc, strays_endOf before hc⟩

end Span

/-! ## Errors at a token -/

/-- Of what can be wrong with a token, only that of a closing tag is its name. -/
def Token.MayHave (token : Token) (fault : ParseFault) : Prop :=
  ∀ expected found, fault = .mismatchedTag expected found →
    ∃ closing, token = .closeTag token.span closing

namespace Builder

variable {builder next : Builder}

theorem Rejects.mayHave {fault : ParseFault} (h : builder.Rejects token fault) :
    token.MayHave fault := by
  intro expected found hfault
  cases h with
  | mismatched closing hopened htoken => exact ⟨closing, htoken⟩
  | _ => cases hfault

/-- A token that is not taken is an error at its own span, and only a closing tag is not
taken because of its name. -/
theorem failsWith_take (options : ParseOptions) (builder : Builder) (token : Token) :
    FailsWith token.MayHave builder.source token.span (builder.take options token) :=
  (rejects_of_take options builder token).mono fun _ => Rejects.mayHave

theorem located_of_not_taken (h : tokens.foldlM (take options) { source } = .error error) :
    ∃ token ∈ tokens, ∃ fault, error = .located source token.span (.parse fault) := by
  obtain ⟨before, token, after, middle, rfl, htakes, htake⟩ := exists_not_taken h
  obtain ⟨fault, herror, _⟩ := failsWith_take options middle token error htake
  exact ⟨token, by simp, fault, by rw [herror, htakes.source_eq]⟩

/-! ## Errors at the end -/

/-- Where the tokens end too early, the error is at a token that was taken, or at the
end. -/
theorem located_of_finish {error? : Option SyntaxError}
    (h : Reached source options tokens builder) (hfinish : builder.finish error? = .error error) :
    (∃ token ∈ tokens, ∃ fault, error = .located source token.span (.parse fault)) ∨
      ∃ fault, error = .located source (Span.endOf source) (.parse fault) ∧
        (fault = .unexpectedEnd ∨ ∃ cause, fault = .badSyntax cause) := by
  have hend (cause : SyntaxError)
      (herror : error = .located source (Span.endOf source) (.parse (.badSyntax cause))) :
      ∃ fault, error = .located source (Span.endOf source) (.parse fault) ∧
        (fault = .unexpectedEnd ∨ ∃ cause, fault = .badSyntax cause) :=
    ⟨_, herror, .inr ⟨cause, rfl⟩⟩
  cases h with
  | prolog hprolog =>
      refine .inr ?_
      cases error? with
      | none => exact ⟨_, (Except.error.inj hfinish).symm, .inl rfl⟩
      | some cause => exact hend cause (Except.error.inj hfinish).symm
  | @subset before inner nodes first hbefore hinner =>
      refine .inl ⟨.subsetOpen first, by simp, ?_⟩
      cases error? with
      | none => exact ⟨_, (Except.error.inj hfinish).symm⟩
      | some cause => exact ⟨_, (Except.error.inj hfinish).symm⟩
  | tag first name attributes houter =>
      cases error? with
      | none =>
          exact .inl ⟨.tagStart first name, by simp, _, (Except.error.inj hfinish).symm⟩
      | some cause => exact .inr (hend cause (Except.error.inj hfinish).symm)
  | content houter hopened =>
      cases error? with
      | some cause => exact .inr (hend cause (Except.error.inj hfinish).symm)
      | none =>
          cases houter with
          | prolog => exact absurd rfl hopened
          | inside first name attributes tagEnd houter hcontent =>
              exact .inl ⟨.tagStart first name, by simp, _, (Except.error.inj hfinish).symm⟩
  | epilog hdocument =>
      cases error? with
      | none => cases hfinish
      | some cause => exact .inr (hend cause (Except.error.inj hfinish).symm)

end Builder

/-! ## The spans of tokens -/

namespace TokenStream

variable {start next stop : TokenStream}

/-- A token has at least one character. -/
theorem span_ne_nil_of_step (hrest : start.cursor.rest ≠ [])
    (hstep : start.step = .ok (some token, next)) : token.span.text ≠ [] := by
  obtain ⟨word, hreads, hne⟩ := reads_of_step hrest hstep
  by_cases hregion : start.region = .tag
  · -- the items of a start tag are spelled with a character each
    obtain ⟨hspelled, hmay, _⟩ := spelled_of_step hrest hstep
    rw [hregion] at hmay
    cases hspelled with
    | tagAttribute | tagEnd | emptyTagEnd => simp [Token.span]
    | _ => cases hmay
  · obtain ⟨hwhole, _⟩ := whole_of_step hregion hrest hstep
    obtain ⟨rfl, _⟩ := hreads.eq_of_rest_eq hwhole rfl
    exact hne

theorem Yields.span_ne_nil (h : Yields start tokens stop) :
    ∀ token ∈ tokens, token.span.text ≠ [] := by
  induction h with
  | nil => simp
  | cons _ hrest hstep _ ih =>
      intro other hother
      rcases List.mem_cons.mp hother with rfl | hother
      · exact span_ne_nil_of_step hrest hstep
      · exact ih other hother

end TokenStream

/-- Every token points into its source. -/
theorem Token.pointsInto_of_ofSource {error? : Option SyntaxError}
    (h : Token.ofSource source = (tokens, error?)) :
    ∀ token ∈ tokens, token.span.PointsInto source := by
  intro token htoken
  obtain ⟨_, _, hyields, _⟩ := TokenStream.tokens_eq_iff.mp h
  obtain ⟨hplaced, _⟩ := Token.placed_of_ofSource h
  exact (hplaced.isSliceOf token htoken).pointsInto (hyields.span_ne_nil token htoken)

/-! ## Errors of the parser -/

/-- An error of the parser is at a token, or at the end because the text ends too early or
cannot be cut into tokens there. -/
theorem Document.located_of_parse {error? : Option SyntaxError}
    (htokens : Token.ofSource source = (tokens, error?))
    (h : Document.parse source options = .error error) :
    (∃ token ∈ tokens, ∃ fault, error = .located source token.span (.parse fault)) ∨
      ∃ fault, error = .located source (Span.endOf source) (.parse fault) ∧
        (fault = .unexpectedEnd ∨ ∃ cause, fault = .badSyntax cause) := by
  rcases parse_cases htokens options with
    ⟨found, htakes, hparse⟩ | ⟨builder, _, hreached, hparse⟩
  · obtain rfl := Except.error.inj (h.symm.trans hparse)
    exact .inl (Builder.located_of_not_taken htakes)
  · exact Builder.located_of_finish hreached (hparse.symm.trans h)

/-- Every error of the parser has the source and a span in it.  The span is a slice of the
source, and its position is the one of the code point at which it starts, unless the error
is at the end of a source whose last code point takes more than one byte: then the span
starts inside that code point, and its position is the one behind the source. -/
theorem Document.pointsInto_of_parse (h : Document.parse source options = .error error) :
    ∃ span fault, error = .located source span (.parse fault) ∧
      (span.PointsInto source ∨
        (span = Span.endOf source ∧ (fault = .unexpectedEnd ∨ ∃ cause, fault = .badSyntax cause) ∧
          ∃ before c, source = before ++ [c] ∧ 1 < c.utf8Size ∧
            ¬ span.IsSliceOf source ∧ span.position source = Position.first.after source)) := by
  cases htokens : Token.ofSource source with
  | mk tokens error? =>
      rcases Document.located_of_parse htokens h with
        ⟨token, htoken, fault, herror⟩ | ⟨fault, herror, hfault⟩
      · have hpoints := Token.pointsInto_of_ofSource htokens token htoken
        exact ⟨token.span, fault, herror, .inl hpoints⟩
      · refine ⟨_, fault, herror, ?_⟩
        rcases Span.pointsInto_or_strays source with hpoints | hstrays
        · exact .inl hpoints
        · exact .inr ⟨rfl, hfault, hstrays⟩

/-- The error at the closing tag of a second row. -/
theorem Document.pointsInto_of_parse_mismatch :
    ∃ error span fault, Document.parse "<ä>\n</b>".toList = .error error ∧
      error = .located "<ä>\n</b>".toList span (.parse fault) ∧
      span.PointsInto "<ä>\n</b>".toList := by
  obtain ⟨error, h⟩ : ∃ error, Document.parse "<ä>\n</b>".toList = .error error :=
    exists_eq_error_of_isOk (by decide +kernel)
  obtain ⟨span, fault, herror, hpoints | ⟨_, _, before, c, hsource, hc, _⟩⟩ :=
    Document.pointsInto_of_parse h
  · exact ⟨error, span, fault, h, herror, hpoints⟩
  · have hlast : '>' = c := Option.some.inj
      ((congrArg List.getLast? hsource).trans List.getLast?_concat)
    rw [← hlast] at hc
    exact absurd hc (by decide)

/-- Behind the root of `<a/>é` stands text, and the error is placed inside the last code
point of the source.  That is no slice of it, and the position is the one of none of its
code points. -/
theorem Document.strays_of_parse :
    ∃ error span, Document.parse "<a/>é".toList = .error error ∧
      error.context = some ⟨"<a/>é".toList, span⟩ ∧
      ¬ span.IsSliceOf "<a/>é".toList ∧
      ∀ before c rest, "<a/>é".toList = before ++ c :: rest →
        span.position "<a/>é".toList ≠ Position.first.after before := by
  have hcontext : (match Document.parse "<a/>é".toList with
      | .error error => error.context == some ⟨"<a/>é".toList, Span.endOf "<a/>é".toList⟩
      | .ok _ => false) = true := by decide +kernel
  cases h : Document.parse "<a/>é".toList with
  | ok document => rw [h] at hcontext; cases hcontext
  | error error =>
      rw [h] at hcontext
      have hwide : 1 < Char.utf8Size 'é' := by decide
      obtain ⟨hslice, hposition⟩ := Span.strays_endOf "<a/>".toList hwide
      refine ⟨error, _, rfl, eq_of_beq hcontext, hslice, fun before c rest hsource hsame => ?_⟩
      exact Position.after_ne_of_append_cons hsource (hsame.symm.trans hposition)

end XmlOutline
