import XmlOutline.Span
import Mathlib.Data.List.Perm.Basic
import Mathlib.Data.Set.List
import Mathlib.Order.Lattice
import Mathlib.Order.MinMax

/-!
# Parts and hulls of spans

A slice of a source lies between two offsets at which the source splits, and between two
such offsets there is always one (`Text.exists_slice?_iff`).  So a slice is told by its
offsets (`Span.IsSliceOf.eq_of_offsets`), and whether it lies in another one is seen from
the offsets alone (`Span.IsSliceOf.isPartOf_iff`).

The slices of one source are therefore ordered like the pairs of their offsets, where an
earlier start and a later end are more.  `Span.hull?` takes the earlier start and the later
end, and this is the join in that order.  Of two slices it always exists, since each of its
offsets is one of theirs; the laws of joins say that neither the order of the spans that
are put together nor a repetition among them matters.

Main statement: `Span.hull?_joins`.
-/

namespace XmlOutline

/-! ## Where a text splits -/

namespace Text

variable {text : Text} {start stop : Nat}

/-- Of two beginnings of a text, the longer one goes on where the shorter one ends. -/
theorem exists_eq_append_of_size_le {first second rest rest' : Text}
    (h : first ++ rest = second ++ rest') (hsize : first.size ≤ second.size) :
    ∃ between, second = first ++ between := by
  rcases List.append_eq_append_iff.mp h with ⟨between, hsecond, _⟩ | ⟨between, hfirst, _⟩
  · exact ⟨between, hsecond⟩
  · have hnil : between = [] := by
      rw [hfirst, size_append] at hsize
      exact size_eq_zero_iff.mp (by omega)
    exact ⟨[], by simp [hfirst, hnil]⟩

/-- Two slices that follow one another lie in one slice. -/
theorem exists_slice?_eq_append {first last : Text} {middle middle' : Nat}
    (hfirst : text.slice? start middle = some first)
    (hlast : text.slice? middle' stop = some last) (horder : middle ≤ middle') :
    ∃ between, text.slice? middle middle' = some between ∧
      text.slice? start stop = some (first ++ between ++ last) := by
  obtain ⟨before, after, htext, rfl, rfl⟩ := slice?_eq_some_iff.mp hfirst
  obtain ⟨before', after', htext', rfl, rfl⟩ := slice?_eq_some_iff.mp hlast
  obtain ⟨between, rfl⟩ : ∃ between, before' = before ++ first ++ between := by
    have hsame : before ++ first ++ after = before' ++ (last ++ after') := by
      rw [← htext, htext', List.append_assoc]
    exact exists_eq_append_of_size_le hsame (by simpa)
  refine ⟨between, slice?_eq_some_iff.mpr ⟨before ++ first, last ++ after', ?_, ?_, ?_⟩,
    slice?_eq_some_iff.mpr ⟨before, after', ?_, rfl, ?_⟩⟩
  · rw [htext']
    simp
  · simp
  · simp [Nat.add_assoc]
  · rw [htext']
    simp
  · simp [Nat.add_assoc]

/-- The text splits at the offset: no code point reaches across it. -/
def IsBoundary (text : Text) (offset : Nat) : Prop :=
  ∃ before rest : Text, text = before ++ rest ∧ before.size = offset

theorem IsBoundary.min (hstart : text.IsBoundary start) (hstop : text.IsBoundary stop) :
    text.IsBoundary (min start stop) := by
  rcases min_choice start stop with hmin | hmin
  · rwa [hmin]
  · rwa [hmin]

theorem IsBoundary.max (hstart : text.IsBoundary start) (hstop : text.IsBoundary stop) :
    text.IsBoundary (max start stop) := by
  rcases max_choice start stop with hmax | hmax
  · rwa [hmax]
  · rwa [hmax]

/-- There is a slice between two offsets if and only if the text splits at both, and they
come in this order. -/
theorem exists_slice?_iff :
    (∃ word, text.slice? start stop = some word) ↔
      text.IsBoundary start ∧ text.IsBoundary stop ∧ start ≤ stop := by
  constructor
  · intro h
    obtain ⟨word, hslice⟩ := h
    obtain ⟨before, after, htext, hstart, hstop⟩ := slice?_eq_some_iff.mp hslice
    refine ⟨⟨before, word ++ after, ?_, hstart⟩, ⟨before ++ word, after, htext, ?_⟩, by omega⟩
    · rw [htext, List.append_assoc]
    · rw [size_append, hstop]
  · intro h
    obtain ⟨⟨before, rest, htext, rfl⟩, ⟨front, after, htext', rfl⟩, hle⟩ := h
    obtain ⟨word, rfl⟩ := exists_eq_append_of_size_le (htext.symm.trans htext') hle
    exact ⟨word, slice?_eq_some_iff.mpr ⟨before, after, htext', rfl, (size_append _ _).symm⟩⟩

end Text

namespace Span

variable {source : Text} {part middle whole span first second : Span}

/-! ## Parts of spans -/

/-- The part lies in the whole, at the offset that it has. -/
def IsPartOf (part whole : Span) : Prop :=
  ∃ before after : Text, whole.text = before ++ part.text ++ after ∧
    part.start = whole.start + before.size

theorem IsPartOf.refl (span : Span) : span.IsPartOf span := ⟨[], [], by simp, by simp⟩

theorem IsPartOf.trans (hpart : part.IsPartOf middle) (hmiddle : middle.IsPartOf whole) :
    part.IsPartOf whole := by
  obtain ⟨before, after, htext, hstart⟩ := hpart
  obtain ⟨before', after', htext', hstart'⟩ := hmiddle
  refine ⟨before' ++ before, after ++ after', ?_, ?_⟩
  · rw [htext', htext]
    simp
  · rw [hstart, hstart', Text.size_append, Nat.add_assoc]

theorem IsPartOf.start_le (h : part.IsPartOf whole) : whole.start ≤ part.start := by
  obtain ⟨before, _, _, hstart⟩ := h
  rw [hstart]
  exact Nat.le_add_right _ _

theorem IsPartOf.stop_le (h : part.IsPartOf whole) : part.stop ≤ whole.stop := by
  obtain ⟨before, after, htext, hstart⟩ := h
  have hsize : whole.size = Text.size before + part.size + Text.size after := by
    rw [Span.size, htext, Text.size_append, Text.size_append]
    rfl
  rw [Span.stop, Span.stop, hstart, hsize]
  omega

/-- What lies in a slice of the source is a slice itself. -/
theorem IsPartOf.isSliceOf (hpart : part.IsPartOf whole) (hwhole : whole.IsSliceOf source) :
    part.IsSliceOf source := by
  obtain ⟨before, after, htext, hstart⟩ := hpart
  obtain ⟨before', after', hsource, hsize, _⟩ := Text.slice?_eq_some_iff.mp hwhole
  have hoffset : Text.size (before' ++ before) = part.start := by
    rw [Text.size_append, hsize, hstart]
  refine Text.slice?_eq_some_iff.mpr ⟨before' ++ before, after ++ after', ?_, hoffset, ?_⟩
  · rw [hsource, htext]
    simp
  · rw [hoffset]
    rfl

/-! ## Slices by their offsets -/

/-- A slice ends where the source does, or before. -/
theorem IsSliceOf.stop_le_size (h : span.IsSliceOf source) : span.stop ≤ source.size := by
  obtain ⟨before, after, hsource, _, hstop⟩ := Text.slice?_eq_some_iff.mp h
  calc span.stop = Text.size (before ++ span.text) := by rw [Text.size_append, hstop]
    _ ≤ Text.size (before ++ span.text) + after.size := Nat.le_add_right _ _
    _ = source.size := by rw [hsource, Text.size_append (before ++ span.text)]

theorem IsSliceOf.isBoundary (h : span.IsSliceOf source) :
    source.IsBoundary span.start ∧ source.IsBoundary span.stop := by
  obtain ⟨hstart, hstop, _⟩ := Text.exists_slice?_iff.mp ⟨_, h⟩
  exact ⟨hstart, hstop⟩

/-- Between two offsets there is no more than one slice. -/
theorem IsSliceOf.eq_of_offsets (hfirst : first.IsSliceOf source)
    (hsecond : second.IsSliceOf source) (hstart : first.start = second.start)
    (hstop : first.stop = second.stop) : first = second := by
  have htext : first.text = second.text := by
    unfold IsSliceOf at hfirst hsecond
    rw [hstart, hstop] at hfirst
    exact Option.some.inj (hfirst.symm.trans hsecond)
  cases first
  cases second
  simp_all

/-- A slice lies in another one if it starts no earlier and ends no later. -/
theorem IsSliceOf.isPartOf_iff (hpart : part.IsSliceOf source) (hwhole : whole.IsSliceOf source) :
    part.IsPartOf whole ↔ whole.start ≤ part.start ∧ part.stop ≤ whole.stop := by
  refine ⟨fun h => ⟨h.start_le, h.stop_le⟩, fun ⟨hstart, hstop⟩ => ?_⟩
  obtain ⟨front, back, hsource, hfront, hend⟩ := Text.slice?_eq_some_iff.mp hpart
  obtain ⟨front', back', hsource', hfront', hend'⟩ := Text.slice?_eq_some_iff.mp hwhole
  -- the part starts in the whole, and what lies before it there has its size
  obtain ⟨before, rfl⟩ : ∃ before, front = front' ++ before := by
    have hsame : front' ++ (whole.text ++ back') = front ++ (part.text ++ back) := by
      rw [← List.append_assoc, ← hsource', hsource, List.append_assoc]
    exact Text.exists_eq_append_of_size_le hsame (by omega)
  obtain ⟨after, hafter⟩ : ∃ after,
      front' ++ whole.text = front' ++ before ++ part.text ++ after := by
    refine Text.exists_eq_append_of_size_le (hsource.symm.trans hsource') ?_
    calc Text.size (front' ++ before ++ part.text) = part.stop := by rw [Text.size_append, hend]
      _ ≤ whole.stop := hstop
      _ = Text.size (front' ++ whole.text) := by rw [Text.size_append, hend']
  refine ⟨before, after, ?_, ?_⟩
  · have hwhole : front' ++ whole.text = front' ++ (before ++ part.text ++ after) := by
      simpa using hafter
    exact List.append_cancel_left hwhole
  · rw [← hfront, ← hfront', Text.size_append]

/-! ## The order of slices -/

/-- Two slices have a hull, and this is a slice from the earlier start to the later end. -/
theorem IsSliceOf.exists_hull? (hfirst : first.IsSliceOf source)
    (hsecond : second.IsSliceOf source) :
    ∃ whole, hull? source first second = some whole ∧ whole.IsSliceOf source ∧
      whole.start = min first.start second.start ∧ whole.stop = max first.stop second.stop := by
  obtain ⟨hstart, hstop⟩ := hfirst.isBoundary
  obtain ⟨hstart', hstop'⟩ := hsecond.isBoundary
  have hle : min first.start second.start ≤ max first.stop second.stop := by
    have : first.start ≤ first.stop := Nat.le_add_right _ _
    omega
  obtain ⟨text, hslice⟩ :=
    Text.exists_slice?_iff.mpr ⟨hstart.min hstart', hstop.max hstop', hle⟩
  have hend : (⟨text, min first.start second.start⟩ : Span).stop =
      max first.stop second.stop := by
    obtain ⟨before, _, _, hbefore, hsize⟩ := Text.slice?_eq_some_iff.mp hslice
    rw [← hsize, hbefore]
    rfl
  refine ⟨⟨text, min first.start second.start⟩, ?_, ?_, rfl, hend⟩
  · simp only [hull?, hslice, Option.map_some]
  · unfold IsSliceOf
    rw [hend]
    exact hslice

end Span

/-- A slice of the source. -/
abbrev Slice (source : Text) : Type := { span : Span // span.IsSliceOf source }

namespace Slice

variable {source : Text}

/-- The place of a slice.  The earlier its start and the later its end, the more it holds. -/
def place (slice : Slice source) : Natᵒᵈ × Nat := (OrderDual.toDual slice.1.start, slice.1.stop)

theorem place_injective : Function.Injective (place : Slice source → Natᵒᵈ × Nat) := by
  intro first second h
  obtain ⟨hstart, hstop⟩ := Prod.mk.inj h
  exact Subtype.ext (first.2.eq_of_offsets second.2 hstart hstop)

/-- The hull of two slices, which there always is. -/
def hull (first second : Slice source) : Slice source where
  val := (Span.hull? source first.1 second.1).get <| by
    obtain ⟨whole, hwhole, _⟩ := first.2.exists_hull? second.2
    simp [hwhole]
  property := by
    obtain ⟨whole, hwhole, hslice, _⟩ := first.2.exists_hull? second.2
    simpa [hwhole] using hslice

theorem hull?_eq (first second : Slice source) :
    Span.hull? source first.1 second.1 = some (first.hull second).1 := by
  simp [hull]

theorem place_hull (first second : Slice source) :
    (first.hull second).place = first.place ⊔ second.place := by
  obtain ⟨whole, hwhole, _, hstart, hstop⟩ := first.2.exists_hull? second.2
  have hsame : (first.hull second).1 = whole :=
    Option.some.inj ((hull?_eq first second).symm.trans hwhole)
  unfold place
  rw [hsame, hstart, hstop]
  rfl

instance : PartialOrder (Slice source) := PartialOrder.lift place place_injective

instance : SemilatticeSup (Slice source) where
  sup := hull
  le_sup_left first second := by
    show first.place ≤ (first.hull second).place
    rw [place_hull]
    exact le_sup_left
  le_sup_right first second := by
    show second.place ≤ (first.hull second).place
    rw [place_hull]
    exact le_sup_right
  sup_le first second whole hfirst hsecond := by
    show (first.hull second).place ≤ whole.place
    rw [place_hull]
    exact sup_le hfirst hsecond

theorem le_iff_isPartOf {part whole : Slice source} : part ≤ whole ↔ part.1.IsPartOf whole.1 :=
  (part.2.isPartOf_iff whole.2).symm

/-! ## Hulls of many slices -/

/-- A slice that is extended by one slice after the other comes out as the join of all. -/
theorem foldlM_hull?_eq (first : Slice source) (rest : List (Slice source)) :
    (rest.map Subtype.val).foldlM (Span.hull? source) first.1 =
      some (rest.foldl (· ⊔ ·) first).1 := by
  induction rest generalizing first with
  | nil => rfl
  | cons second rest ih =>
      rw [List.map_cons, List.foldlM_cons, hull?_eq]
      exact ih (first ⊔ second)

theorem foldl_sup_le_iff {first whole : Slice source} {rest : List (Slice source)} :
    rest.foldl (· ⊔ ·) first ≤ whole ↔ ∀ slice ∈ first :: rest, slice ≤ whole := by
  induction rest generalizing first with
  | nil => simp
  | cons second rest ih => simp [ih, and_assoc]

/-- The join of some slices is that of the same slices in another order. -/
theorem foldl_sup_eq_of_perm {first other : Slice source} {rest others : List (Slice source)}
    (h : (first :: rest).Perm (other :: others)) :
    rest.foldl (· ⊔ ·) first = others.foldl (· ⊔ ·) other := by
  refine eq_of_forall_ge_iff fun whole => ?_
  rw [foldl_sup_le_iff, foldl_sup_le_iff]
  exact ⟨fun hall slice hslice => hall slice (h.mem_iff.mpr hslice),
    fun hall slice hslice => hall slice (h.mem_iff.mp hslice)⟩

end Slice

namespace Span

variable {source : Text} {first second third : Span}

/-- The whole is the least slice of the source in which all these spans lie. -/
structure IsHullOf (source : Text) (spans : List Span) (whole : Span) : Prop where
  isSliceOf : whole.IsSliceOf source
  covers : ∀ span ∈ spans, span.IsPartOf whole
  least : ∀ other : Span, other.IsSliceOf source → (∀ span ∈ spans, span.IsPartOf other) →
    whole.IsPartOf other

theorem isHullOf_foldl (first : Slice source) (rest : List (Slice source)) :
    (rest.foldl (· ⊔ ·) first).1.IsHullOf source ((first :: rest).map Subtype.val) where
  isSliceOf := (rest.foldl (· ⊔ ·) first).2
  covers := by
    have hall := Slice.foldl_sup_le_iff.mp (le_refl (rest.foldl (· ⊔ ·) first))
    exact List.forall_mem_map.mpr fun slice hslice => Slice.le_iff_isPartOf.mp (hall slice hslice)
  least other hother hcovers := by
    have hall : rest.foldl (· ⊔ ·) first ≤ (⟨other, hother⟩ : Slice source) :=
      Slice.foldl_sup_le_iff.mpr fun slice hslice =>
        Slice.le_iff_isPartOf.mpr (List.forall_mem_map.mp hcovers slice hslice)
    exact Slice.le_iff_isPartOf.mp hall

/-- Two slices of a source have a hull: the slice from the earlier start to the later end,
the least one in which both lie.  Slices can be put together in any order and any grouping,
and the same one repeatedly; the result is the same, and there always is one. -/
theorem hull?_joins (hfirst : first.IsSliceOf source) (hsecond : second.IsSliceOf source)
    (hthird : third.IsSliceOf source) :
    (∃ whole, hull? source first second = some whole ∧
      whole.start = min first.start second.start ∧ whole.stop = max first.stop second.stop ∧
      whole.IsHullOf source [first, second]) ∧
    hull? source first second = hull? source second first ∧
    hull? source first first = some first ∧
    (∃ whole, (hull? source first second).bind (hull? source · third) = some whole ∧
      (hull? source second third).bind (hull? source first) = some whole) ∧
    ∀ (rest : List Span) (other : Span) (others : List Span),
      (∀ span ∈ rest, span.IsSliceOf source) → (first :: rest).Perm (other :: others) →
        ∃ whole, rest.foldlM (hull? source) first = some whole ∧
          others.foldlM (hull? source) other = some whole ∧
          whole.IsHullOf source (first :: rest) := by
  lift first to Slice source using hfirst
  lift second to Slice source using hsecond
  lift third to Slice source using hthird
  have hjoin (left right : Slice source) : hull? source left right = some (left ⊔ right).1 :=
    Slice.hull?_eq left right
  refine ⟨?_, ?_, ?_, ?_, ?_⟩
  · obtain ⟨whole, hwhole, _, hstart, hstop⟩ := first.2.exists_hull? second.2
    obtain rfl := Option.some.inj ((hjoin first second).symm.trans hwhole)
    exact ⟨_, hwhole, hstart, hstop, isHullOf_foldl first [second]⟩
  · rw [hjoin, hjoin, sup_comm]
  · rw [hjoin, sup_idem]
  · refine ⟨(first ⊔ second ⊔ third).1, ?_, ?_⟩
    · rw [hjoin]
      exact hjoin (first ⊔ second) third
    · rw [hjoin, sup_assoc]
      exact hjoin first (second ⊔ third)
  · intro rest other others hrest hperm
    have hsame : ∀ span ∈ other :: others, span.IsSliceOf source := by
      intro span hspan
      rcases List.mem_cons.mp (hperm.mem_iff.mpr hspan) with rfl | hspan
      · exact first.2
      · exact hrest span hspan
    obtain ⟨hother, hothers⟩ := List.forall_mem_cons.mp hsame
    lift rest to List (Slice source) using hrest
    lift other to Slice source using hother
    lift others to List (Slice source) using hothers
    have hslices : (first :: rest).Perm (other :: others) :=
      (List.map_perm_map_iff Subtype.val_injective).mp hperm
    refine ⟨_, Slice.foldlM_hull?_eq first rest, ?_, isHullOf_foldl first rest⟩
    rw [Slice.foldlM_hull?_eq, Slice.foldl_sup_eq_of_perm hslices]

/-- Three spans of `aßc→d`: one in front of another, and an empty one at the end. -/
theorem hull?_joins_multibyte :
    (⟨"→".toList, 4⟩ : Span).IsSliceOf "aßc→d".toList ∧
    (⟨"ß".toList, 1⟩ : Span).IsSliceOf "aßc→d".toList ∧
    (⟨[], 8⟩ : Span).IsSliceOf "aßc→d".toList ∧
    (∃ whole, hull? "aßc→d".toList ⟨"→".toList, 4⟩ ⟨"ß".toList, 1⟩ = some whole ∧
      whole.start = 1 ∧ whole.stop = 7 ∧
      whole.IsHullOf "aßc→d".toList [⟨"→".toList, 4⟩, ⟨"ß".toList, 1⟩]) ∧
    ∃ whole,
      [⟨"ß".toList, 1⟩, ⟨[], 8⟩].foldlM (hull? "aßc→d".toList) ⟨"→".toList, 4⟩ = some whole ∧
      [⟨"→".toList, 4⟩, ⟨"ß".toList, 1⟩].foldlM (hull? "aßc→d".toList) ⟨[], 8⟩ = some whole ∧
      whole.IsHullOf "aßc→d".toList [⟨"→".toList, 4⟩, ⟨"ß".toList, 1⟩, ⟨[], 8⟩] := by
  have hfirst : (⟨"→".toList, 4⟩ : Span).IsSliceOf "aßc→d".toList := by decide
  have hsecond : (⟨"ß".toList, 1⟩ : Span).IsSliceOf "aßc→d".toList := by decide
  have hthird : (⟨[], 8⟩ : Span).IsSliceOf "aßc→d".toList := by decide
  obtain ⟨hpair, _, _, _, hall⟩ := hull?_joins hfirst hsecond hthird
  refine ⟨hfirst, hsecond, hthird, hpair, hall _ _ _ ?_ ?_⟩
  · exact List.forall_mem_cons.mpr ⟨hsecond, List.forall_mem_singleton.mpr hthird⟩
  · exact List.perm_append_singleton (⟨[], 8⟩ : Span) [⟨"→".toList, 4⟩, ⟨"ß".toList, 1⟩]

end Span

end XmlOutline
