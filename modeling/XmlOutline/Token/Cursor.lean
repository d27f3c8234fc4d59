import XmlOutline.Span

/-!
# Cursors

A cursor stands at a place of a text: it knows what is still to be read, how
many bytes were read, and the row and the column.  All three move together, by
`Cursor.past`.

Main statement: `Reads.spanTo`, which says that the span between two cursors
holds exactly what was read between them.
-/

namespace XmlOutline

/-- A place in a text. -/
structure Cursor where
  rest : Text
  offset : Nat := 0
  position : Position := Position.first

namespace Cursor

/-- The cursor behind `word`, with `rest` still to be read. -/
def past (cursor : Cursor) (word rest : Text) : Cursor :=
  ⟨rest, cursor.offset + word.size, cursor.position.after word⟩

/-- Does what is still to be read start with this word? -/
def startsWith (cursor : Cursor) (word : String) : Bool := word.toList.isPrefixOf cursor.rest

/-- The span from one cursor to a later one. -/
def spanTo (start stop : Cursor) : Span :=
  ⟨start.rest.takeSize (stop.offset - start.offset), start.offset⟩

/-- Reading `word` leads from `start` to `stop`. -/
structure Reads (start : Cursor) (word : Text) (stop : Cursor) : Prop where
  rest_eq : start.rest = word ++ stop.rest
  eq_past : stop = start.past word stop.rest

namespace Reads

theorem refl (cursor : Cursor) : cursor.Reads [] cursor := ⟨rfl, rfl⟩

theorem trans {start middle stop : Cursor} {first second : Text}
    (hfirst : start.Reads first middle) (hsecond : middle.Reads second stop) :
    start.Reads (first ++ second) stop where
  rest_eq := by rw [hfirst.rest_eq, hsecond.rest_eq, List.append_assoc]
  eq_past := by
    rw [hsecond.eq_past, hfirst.eq_past]
    simp [past, Nat.add_assoc]

theorem offset_eq {start stop : Cursor} {word : Text} (h : start.Reads word stop) :
    stop.offset = start.offset + word.size := by
  rw [h.eq_past]
  rfl

/-- The span between two cursors holds what was read between them. -/
theorem spanTo {start stop : Cursor} {word : Text} (h : start.Reads word stop) :
    start.spanTo stop = ⟨word, start.offset⟩ := by
  simp [Cursor.spanTo, h.offset_eq, h.rest_eq]

theorem length_lt {start stop : Cursor} {word : Text} (h : start.Reads word stop)
    (hword : word ≠ []) : stop.rest.length < start.rest.length := by
  have := List.length_pos_iff.mpr hword
  simp only [h.rest_eq, List.length_append]
  omega

end Reads

/-- Going past a word that the rest starts with reads it. -/
theorem reads_past {cursor : Cursor} {word rest : Text} (h : cursor.rest = word ++ rest) :
    cursor.Reads word (cursor.past word rest) := ⟨h, rfl⟩

end Cursor

end XmlOutline
