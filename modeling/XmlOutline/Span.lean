import XmlOutline.Position

/-!
# Spans

A span is a piece of text together with the byte offset at which it starts in
some source.  Spans can also be made by hand, for trees that come from no
source; such a span need not be a slice of anything.
-/

namespace XmlOutline

/-- A text that starts at byte `start` of a source. -/
structure Span where
  text : Text := []
  start : Nat := 0
deriving DecidableEq, Inhabited

namespace Span

/-- The length in bytes. -/
def size (span : Span) : Nat := span.text.size

/-- The byte offset behind the span. -/
def stop (span : Span) : Nat := span.start + span.size

/-- The empty span that marks the last byte of a source. -/
def endOf (source : Text) : Span := ⟨[], source.size - 1⟩

/-- The row and the column at which the span starts. -/
def position (span : Span) (source : Text) : Position := Position.ofOffset source span.start

/-- The span is what the source holds between its two offsets. -/
def IsSliceOf (span : Span) (source : Text) : Prop :=
  source.slice? span.start span.stop = some span.text

instance (span : Span) (source : Text) : Decidable (span.IsSliceOf source) :=
  inferInstanceAs (Decidable (_ = _))

/-- The part of the source from the earlier of the two starts to the later of
the two ends, if the source has such a slice. -/
def hull? (source : Text) (first second : Span) : Option Span :=
  let start := min first.start second.start
  let stop := max first.stop second.stop
  (source.slice? start stop).map fun text => ⟨text, start⟩

end Span

end XmlOutline
