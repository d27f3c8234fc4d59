import XmlOutline.Proofs.Style.Overrides

/-!
# Decorations that can be removed

Removing control sequences from a text that holds no escape character leaves it as
it is, and removes what `Sgr.wrap` puts around a text.  Since such texts are written
one after the other, both facts are stated with an arbitrary tail (`Sgr.StripsTo`).

A style that starts from one of the two given ones and is changed by lists of
overrides only (`Style.Reachable`) decorates by nothing but control sequences: the
parameters that an override brings are checked when it is read.
-/

namespace XmlOutline

namespace Sgr

/-! ## Removing sequences one by one -/

@[simp] theorem strip_nil : strip [] = [] := by
  rw [strip]
  split
  · rename_i hdrop
    cases hdrop
  · rfl

/-- Where no control sequence starts, one character is kept. -/
theorem strip_cons_of_none {c : Char} {rest : Text} (hnone : dropSequence? (c :: rest) = none) :
    strip (c :: rest) = c :: strip rest := by
  rw [strip]
  split
  · rename_i after hdrop
    rw [hnone] at hdrop
    cases hdrop
  · rfl

theorem strip_cons {c : Char} (hc : c ≠ escape) (rest : Text) :
    strip (c :: rest) = c :: strip rest := by
  apply strip_cons_of_none
  cases hdrop : dropSequence? (c :: rest) with
  | none => rfl
  | some after =>
      obtain ⟨word, ⟨parameters, _, rfl⟩, htext⟩ := dropSequence?_eq_some_iff.mp hdrop
      exact absurd (List.cons.inj htext).1 hc

theorem strip_sequence_append {word : Text} (hword : IsSequence word) (tail : Text) :
    strip (word ++ tail) = strip tail := by
  have hsome : dropSequence? (word ++ tail) = some tail :=
    dropSequence?_eq_some_iff.mpr ⟨word, hword, rfl⟩
  rw [strip]
  split
  · rename_i after hdrop
    show strip after = strip tail
    rw [Option.some.inj (hsome.symm.trans hdrop)]
  · rename_i hdrop
    rw [hsome] at hdrop
    cases hdrop

/-! ## Removing them from what was written -/

/-- Whatever comes behind it, the text is what is left of what was written. -/
def StripsTo (written text : Text) : Prop :=
  ∀ tail, strip (written ++ tail) = text ++ strip tail

theorem StripsTo.strip_eq {written text : Text} (h : StripsTo written text) :
    strip written = text := by
  have := h []
  simpa using this

theorem StripsTo.append {written written' text text' : Text} (h : StripsTo written text)
    (h' : StripsTo written' text') : StripsTo (written ++ written') (text ++ text') := by
  intro tail
  rw [List.append_assoc, h, h', List.append_assoc]

/-- A text without escape characters is left as it is. -/
theorem stripsTo_self {text : Text} (htext : escape ∉ text) : StripsTo text text := by
  intro tail
  induction text with
  | nil => rfl
  | cons c rest ih =>
      have hc : c ≠ escape := fun h => htext (h ▸ List.mem_cons_self)
      have hrest : escape ∉ rest := fun h => htext (List.mem_cons_of_mem _ h)
      rw [List.cons_append, strip_cons hc, ih hrest, List.cons_append]

theorem stripsTo_flatten {α : Type} {written text : α → Text} {items : List α}
    (h : ∀ item ∈ items, StripsTo (written item) (text item)) :
    StripsTo (items.map written).flatten (items.map text).flatten := by
  induction items with
  | nil => exact stripsTo_self (List.not_mem_nil)
  | cons item items ih =>
      have hitem := h item List.mem_cons_self
      exact hitem.append (ih fun other hother => h other (List.mem_cons_of_mem _ hother))

/-- The sequences around a text are removed. -/
theorem stripsTo_wrap {parameters text : Text}
    (hparameters : ∀ c ∈ parameters, isParameter c = true) (htext : escape ∉ text) :
    StripsTo (wrap parameters text) text := by
  intro tail
  have hreset : IsSequence (sequence ['0']) := ⟨['0'], by simp [isParameter], rfl⟩
  calc strip (wrap parameters text ++ tail)
      = strip (sequence parameters ++ (text ++ (sequence ['0'] ++ tail))) := by
        simp [wrap]
    _ = strip (text ++ (sequence ['0'] ++ tail)) :=
        strip_sequence_append ⟨parameters, hparameters, rfl⟩ _
    _ = text ++ strip (sequence ['0'] ++ tail) := stripsTo_self htext _
    _ = text ++ strip tail := by rw [strip_sequence_append hreset]

end Sgr

/-! ## Styles -/

/-- What the decoration adds are control sequences, if anything. -/
def Decoration.IsRemovable : Decoration → Prop
  | identity => True
  | sgr parameters => ∀ c ∈ parameters, Sgr.isParameter c = true
  | custom _ => False

namespace Decoration

variable {decoration : Decoration} {text : Text}

theorem IsRemovable.stripsTo (h : decoration.IsRemovable) (htext : Sgr.escape ∉ text) :
    Sgr.StripsTo (decoration.apply text) text := by
  cases decoration with
  | identity => exact Sgr.stripsTo_self htext
  | sgr parameters => exact Sgr.stripsTo_wrap h htext
  | custom render => exact h.elim

theorem IsRemovable.ne_custom (h : decoration.IsRemovable) (render : Text → Text) :
    decoration ≠ .custom render := by
  rintro rfl
  exact h

/-- All of the text is written, unless a custom decoration decides otherwise. -/
theorem subset_apply (h : ∀ render, decoration ≠ .custom render) :
    text ⊆ decoration.apply text := by
  intro c hc
  cases decoration with
  | identity => exact hc
  | sgr parameters => exact List.mem_append_left _ (List.mem_append_right _ hc)
  | custom render => exact absurd rfl (h render)

end Decoration

namespace Style

/-- The styles that the plain one and the decorated one become by lists of
overrides. -/
inductive Reachable : Style → Prop where
  | plain : Reachable plain
  | decorated : Reachable decorated
  | withOverrides {style next : Style} (overrides : Text) (hstyle : Reachable style)
      (hnext : style.withOverrides overrides = .ok next) : Reachable next

/-- Nothing but control sequences is added to any piece. -/
def IsRemovable (style : Style) : Prop := ∀ role, (style.decoration role).IsRemovable

variable {style next : Style}

theorem IsRemovable.update (h : style.IsRemovable) {decoration : Decoration}
    (hdecoration : decoration.IsRemovable) (role : Role) :
    (style.update role decoration).IsRemovable := by
  intro other
  show (if other = role then decoration else style.decoration other).IsRemovable
  split
  · exact hdecoration
  · exact h other

theorem isRemovable_plain : plain.IsRemovable := fun _ => trivial

private theorem isRemovable_foldl {entries : List (Role × String)}
    (hentries : ∀ entry ∈ entries, ∀ c ∈ entry.2.toList, Sgr.isParameter c = true)
    (h : style.IsRemovable) :
    (entries.foldl (fun style entry => style.update entry.1 (.sgr entry.2.toList))
      style).IsRemovable := by
  induction entries generalizing style with
  | nil => exact h
  | cons entry entries ih =>
      have hentry : (Decoration.sgr entry.2.toList).IsRemovable :=
        hentries entry List.mem_cons_self
      exact ih (fun other hother => hentries other (List.mem_cons_of_mem _ hother))
        (h.update hentry entry.1)

theorem isRemovable_decorated : decorated.IsRemovable := by
  have hall : palette.all (fun entry => entry.2.toList.all Sgr.isParameter) = true := by decide
  refine isRemovable_foldl (fun entry hentry c hc => ?_) isRemovable_plain
  exact List.all_eq_true.mp (List.all_eq_true.mp hall entry hentry) c hc

/-- An entry brings a decoration that can be removed. -/
theorem isRemovable_of_reads {entry : Text} {override : Override}
    (h : Override.Reads entry override) : override.decoration.IsRemovable := by
  cases h with
  | removed => trivial
  | replaced _ _ _ _ hparameters =>
      exact fun c hc => Sgr.isParameter_eq_true_iff.mpr (hparameters c hc)

theorem IsRemovable.withOverrides (h : style.IsRemovable) {overrides : Text}
    (hnext : style.withOverrides overrides = .ok next) : next.IsRemovable := by
  intro role
  have hdecides := (applyEntries_eq_ok_iff.mp hnext).2 role
  generalize next.decoration role = decoration at hdecides ⊢
  cases hdecides with
  | named _ hreads => exact isRemovable_of_reads hreads
  | unnamed => exact h role

theorem Reachable.isRemovable (h : style.Reachable) : style.IsRemovable := by
  induction h with
  | plain => exact isRemovable_plain
  | decorated => exact isRemovable_decorated
  | withOverrides overrides _ hnext ih => exact ih.withOverrides hnext

/-! ## What is written for a piece -/

theorem paint_plain (role : Role) (text : Text) : plain.paint role text = text := by
  unfold paint
  cases text with
  | nil => rfl
  | cons c rest => rfl

theorem IsRemovable.stripsTo_paint (h : style.IsRemovable) (role : Role) {text : Text}
    (htext : Sgr.escape ∉ text) : Sgr.StripsTo (style.paint role text) text := by
  unfold paint
  cases text with
  | nil => exact Sgr.stripsTo_self htext
  | cons c rest => exact (h role).stripsTo htext

theorem subset_paint (h : ∀ role render, style.decoration role ≠ .custom render) (role : Role)
    (text : Text) : text ⊆ style.paint role text := by
  unfold paint
  cases text with
  | nil => exact List.nil_subset _
  | cons c rest => exact Decoration.subset_apply (h role)

theorem IsRemovable.subset_paint (h : style.IsRemovable) (role : Role) (text : Text) :
    text ⊆ style.paint role text :=
  Style.subset_paint (fun role => (h role).ne_custom) role text

end Style

end XmlOutline
