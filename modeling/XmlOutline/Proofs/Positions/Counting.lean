import XmlOutline.Proofs.Positions.Nesting

/-!
# Positions told by counting

The position of a span is a matter of its start alone.  If a code point of the source
starts there, the row counts the line feeds before it, and the column counts the code
points before it in its row (`Position.Counts`); so two code points never have the same
position, and the later one has the later position.  For every other start the walk along
the source ends behind the whole source, and this is what the position counts.

An error takes its own copy of the span with it, and of the source; the position told from
these is the same.

Main statement: `Span.counts_position`.
-/

namespace XmlOutline

namespace Position

variable {source : Text} {offset : Nat}

/-- The position is the one behind a text: there is a row for each line feed and one more, and
a column for each code point behind the last line feed, or behind the beginning, and one
more. -/
structure Counts (position : Position) (before : Text) : Prop where
  row_eq : position.row = 1 + before.count '\n'
  column_eq : ∃ lines line : Text, before = lines ++ line ∧
    (lines = [] ∨ lines.getLast? = some '\n') ∧ '\n' ∉ line ∧ position.column = 1 + line.length

theorem counts_after (text : Text) : (first.after text).Counts text where
  row_eq := row_after first text
  column_eq := by
    induction text using List.reverseRecOn with
    | nil => exact ⟨[], [], rfl, .inl rfl, List.not_mem_nil, rfl⟩
    | append_singleton text c ih =>
        obtain ⟨lines, line, htext, hlines, hline, hcolumn⟩ := ih
        by_cases hc : c = '\n'
        · -- a line feed ends the row, and nothing stands behind it
          refine ⟨text ++ [c], [], (List.append_nil _).symm, .inr ?_, List.not_mem_nil, ?_⟩
          · rw [List.getLast?_concat, hc]
          · simp [next, hc]
        · refine ⟨lines, line ++ [c], by rw [htext, List.append_assoc], hlines, ?_, ?_⟩
          · simpa [hline] using Ne.symm hc
          · simp only [after_append, after_cons, after_nil, next, if_neg hc, hcolumn,
              List.length_append, List.length_singleton]
            omega

/-- Where a code point starts there is a slice, if only an empty one. -/
theorem IsStart.isSliceOf (h : IsStart source offset) : (⟨[], offset⟩ : Span).IsSliceOf source := by
  obtain ⟨before, c, rest, hsource, hsize⟩ := h
  exact Text.slice?_eq_some_iff.mpr ⟨before, c :: rest, by simpa using hsource, hsize, by
    simp [Span.stop, Span.size, hsize]⟩

/-- The later of two code points has the later position. -/
theorem IsStart.precedes {later : Nat} (h : IsStart source offset) (hlater : IsStart source later)
    (hlt : offset < later) : (ofOffset source offset).Precedes (ofOffset source later) :=
  h.isSliceOf.position_precedes hlater.isSliceOf hlt

/-- The position of a code point tells its offset. -/
theorem IsStart.eq_of_ofOffset_eq {other : Nat} (h : IsStart source offset)
    (hother : IsStart source other) (hsame : ofOffset source offset = ofOffset source other) :
    offset = other := by
  rcases Nat.lt_trichotomy offset other with hlt | heq | hgt
  · exact absurd hsame (h.precedes hother hlt).ne
  · exact heq
  · exact absurd hsame.symm (hother.precedes h hgt).ne

end Position

namespace Span

/-- The position of a span that starts at a code point counts what stands before it, and that
of any other span counts the whole source.  Among the code points of a source positions grow
with the offsets, so each tells its offset; and the position of an error about a span is the
position of the span. -/
theorem counts_position (source : Text) :
    (∀ (span : Span) (before : Text) (c : Char) (rest : Text), source = before ++ c :: rest →
      span.start = before.size → (span.position source).Counts before) ∧
    (∀ span : Span, ¬ Position.IsStart source span.start →
      (span.position source).Counts source) ∧
    (∀ first second : Span, Position.IsStart source first.start →
      Position.IsStart source second.start →
        (first.start < second.start → (first.position source).Precedes (second.position source)) ∧
        (first.position source = second.position source → first.start = second.start)) ∧
    ∀ (span : Span) (kind : ErrorKind),
      (Error.located source span kind).context.map ErrorContext.position =
        some (span.position source) := by
  refine ⟨fun span before c rest hsource hstart => ?_, fun span hnone => ?_,
    fun first second hfirst hsecond => ⟨hfirst.precedes hsecond, hfirst.eq_of_ofOffset_eq hsecond⟩,
    fun _ _ => rfl⟩
  · have hposition : span.position source = Position.first.after before := by
      rw [position, hstart, hsource, Position.ofOffset_size]
    rw [hposition]
    exact Position.counts_after before
  · have hposition : span.position source = Position.first.after source :=
      Position.ofOffset_of_not_start hnone
    rw [hposition]
    exact Position.counts_after source

/-- In `é`, a line feed, `→x`, the last code point starts at byte 6, and byte 4 lies inside the
arrow. -/
theorem counts_position_multibyte :
    ((⟨[], 6⟩ : Span).position "é\n→x".toList).Counts "é\n→".toList ∧
    ((⟨[], 4⟩ : Span).position "é\n→x".toList).Counts "é\n→x".toList ∧
    ((⟨[], 2⟩ : Span).position "é\n→x".toList).Precedes
      ((⟨[], 6⟩ : Span).position "é\n→x".toList) := by
  have hfeed : Position.IsStart "é\n→x".toList 2 := ⟨"é".toList, '\n', "→x".toList, rfl, rfl⟩
  have hlast : Position.IsStart "é\n→x".toList 6 := ⟨"é\n→".toList, 'x', [], rfl, rfl⟩
  obtain ⟨hstart, hother, hordered, _⟩ := counts_position "é\n→x".toList
  refine ⟨hstart ⟨[], 6⟩ _ 'x' [] rfl rfl, hother ⟨[], 4⟩ fun hinside => ?_,
    (hordered ⟨[], 2⟩ ⟨[], 6⟩ hfeed hlast).1 (by decide)⟩
  have hnone : Text.dropSize? 4 "é\n→x".toList = none := by decide
  obtain ⟨before, c, rest, hsource, hsize⟩ := hinside
  rw [Text.dropSize?_eq_some_iff.mpr ⟨before, hsource, hsize⟩] at hnone
  cases hnone

end Span

end XmlOutline
