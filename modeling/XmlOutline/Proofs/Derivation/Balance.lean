import XmlOutline.Proofs.Derivation.Moves

/-!
# The stack of open elements

In which stage a builder is and whether an element is open there are kept apart, but
they go together: an element is open in a start tag and inside an element, and nowhere
else (`Builder.Balanced`).  Every token that is taken keeps it so, whatever tokens came
before, so no fact about the token stream is needed here.
-/

namespace XmlOutline.Builder

/-- An element is open in a start tag or inside an element, and nowhere else. -/
def Balanced (builder : Builder) : Prop :=
  builder.draft.opened ≠ [] ↔ builder.stage = .tag ∨ builder.stage = .content

variable {options : ParseOptions} {builder next : Builder} {token : Token}

theorem balanced_start (source : Text) : Balanced { source } := by simp [Balanced]

theorem Balanced.add (h : builder.Balanced) (node : Node) : (builder.add node).Balanced := by
  have hsame : (builder.draft.add node).opened ≠ [] ↔ builder.draft.opened ≠ [] :=
    not_congr (Draft.opened_add_eq_nil_iff node)
  exact hsame.trans h

theorem Balanced.of_moves (h : builder.Balanced) (hmoves : Moves builder token next) :
    next.Balanced := by
  cases hmoves with
  | passes => exact h
  | addsLeaf => exact h.add _
  | opensElement name => simp [Balanced, openElement, Draft.openElement]
  | addsAttribute attr hstage => simp [Balanced, hstage]
  | endsTag hstage =>
      have hopened : builder.draft.opened ≠ [] := h.mpr (.inl hstage)
      simpa [Balanced] using hopened
  | @closesElement inner outer whole =>
      -- the stage behind the element is that of the outer one, if there is one
      cases outer with
      | nil => simp [Balanced, stageBehind, Draft.add]
      | cons parent outer => simp [Balanced, stageBehind, Draft.add]
  | opensSubset hstage => simpa [Balanced, hstage] using h
  | @closesSubset opening whole hstage =>
      have hadded := h.add (.unsupported whole .documentType)
      simpa [Balanced, Builder.add, hstage] using hadded

/-- Every token that is taken leaves the builder balanced. -/
theorem Balanced.take (h : builder.Balanced) (htake : builder.take options token = .ok next) :
    next.Balanced :=
  h.of_moves (moves_of_take htake)

end XmlOutline.Builder
