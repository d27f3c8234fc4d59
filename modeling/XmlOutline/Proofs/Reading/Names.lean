import XmlOutline.Proofs.Reading.Scanners

/-!
# Names that were read

A name that was read is made of one or two parts, each of which begins like a
name and has no colon.  Such a name is `Name.IsProper`.  Conversely a proper name
can be read again from its display, and what is read is the same name
(`Name.IsProper.exists_ofQualified?_display`); only its offsets may differ.  So two
names that were read are equal exactly if they were written alike, a colon in front
apart (`Name.IsProper.beq_iff_display_eq`, `Name.display_of_ofQualified?`).
-/

namespace XmlOutline

open CharClass

/-- A name as it is written, without the colon that an empty qualifier leaves in front. -/
def Text.withoutColon : Text → Text
  | ':' :: rest => rest
  | text => text

/-- One side of the colon in a name, or a whole name without a colon. -/
def Text.IsNamePart (text : Text) : Prop := text.IsName ∧ ':' ∉ text

namespace Name

/-- The parts of the name are as reading leaves them. -/
structure IsProper (name : Name) : Prop where
  localPart : name.localPart.text.IsNamePart
  qualifier : ∀ span ∈ name.qualifier, span.text.IsNamePart

/-! ## Comparing names -/

theorem beq_symm {first second : Name} (h : (first == second) = true) :
    (second == first) = true :=
  beq_eq_true_iff.mpr ⟨(beq_eq_true_iff.mp h).1.symm, (beq_eq_true_iff.mp h).2.symm⟩

theorem beq_trans {first second third : Name} (h : (first == second) = true)
    (h' : (second == third) = true) : (first == third) = true :=
  beq_eq_true_iff.mpr ⟨(beq_eq_true_iff.mp h).1.trans (beq_eq_true_iff.mp h').1,
    (beq_eq_true_iff.mp h).2.trans (beq_eq_true_iff.mp h').2⟩

/-! ## Reading gives proper names -/

theorem startsName_eq (text : Text) : startsName text = text.head?.any isNameStart := by
  cases text with
  | nil => rfl
  | cons c rest => rfl

/-- Nothing is no name. -/
theorem ne_nil_of_ofQualified? {raw : Text} {start : Nat} {name : Name}
    (h : ofQualified? ⟨raw, start⟩ = some name) : raw ≠ [] := by
  rintro rfl
  cases h

private theorem colon_notMem_takeWhile (text : Text) : ':' ∉ text.takeWhile (· != ':') := by
  intro hmem
  have := List.all_eq_true.mp (List.all_takeWhile (p := (· != ':')) (l := text)) ':' hmem
  simp at this

theorem isProper_of_ofQualified? {raw : Span} {name : Name} (hraw : raw.text.IsNameChars)
    (h : ofQualified? raw = some name) : name.IsProper := by
  have hsplit : raw.text = raw.text.takeWhile (· != ':') ++ raw.text.dropWhile (· != ':') :=
    List.takeWhile_append_dropWhile.symm
  cases hdrop : raw.text.dropWhile (· != ':') with
  | nil =>
      simp only [ofQualified?, hdrop, Option.ite_none_right_eq_some, Option.some.injEq] at h
      obtain ⟨hstart, rfl⟩ := h
      rw [startsName_eq] at hstart
      refine ⟨⟨⟨hraw, hstart⟩, ?_⟩, by simp [ofParts]⟩
      show ':' ∉ raw.text
      rw [hsplit, hdrop, List.append_nil]
      exact colon_notMem_takeWhile _
  | cons colon localText =>
      simp only [ofQualified?, hdrop, Option.ite_none_right_eq_some, Option.some.injEq,
        Bool.and_eq_true, Bool.or_eq_true, Bool.not_eq_true', startsName_eq] at h
      obtain ⟨⟨⟨hqualifier, hlocal⟩, hcolon⟩, rfl⟩ := h
      rw [hdrop] at hsplit
      refine ⟨⟨⟨?_, hlocal⟩, ?_⟩, ?_⟩
      · intro c hc
        refine hraw c ?_
        rw [hsplit]
        exact List.mem_append_right _ (List.mem_cons_of_mem _ hc)
      · simpa [ofParts] using hcolon
      · intro span hspan
        obtain ⟨rfl, hne⟩ : span = ⟨raw.text.takeWhile (· != ':'), raw.start⟩ ∧
            (raw.text.takeWhile (· != ':')).isEmpty = false := by
          simp only [ofParts, Option.mem_def, Option.filter_eq_some_iff, Option.some.injEq,
            Bool.not_eq_true'] at hspan
          obtain ⟨rfl, hne⟩ := hspan
          exact ⟨rfl, hne⟩
        refine ⟨⟨?_, ?_⟩, colon_notMem_takeWhile _⟩
        · intro c hc
          refine hraw c ?_
          rw [hsplit]
          exact List.mem_append_left _ hc
        · rw [hne] at hqualifier
          exact hqualifier.resolve_left Bool.false_ne_true

/-! ## Proper names can be read again -/

/-- The display of a proper name is a name. -/
theorem IsProper.display_isName {name : Name} (h : name.IsProper) : name.display.IsName := by
  cases hqualifier : name.qualifier with
  | none =>
      simp only [display, hqualifier]
      exact h.localPart.1
  | some qualifier =>
      obtain ⟨⟨hchars, hstart⟩, _⟩ := h.qualifier qualifier hqualifier
      simp only [display, hqualifier]
      refine ⟨?_, ?_⟩
      · intro c hc
        rcases List.mem_append.mp hc with hc | hc
        · exact hchars c hc
        · rcases List.mem_cons.mp hc with rfl | hc
          · decide
          · exact h.localPart.1.1 c hc
      · cases htext : qualifier.text with
        | nil => simp [htext] at hstart
        | cons c rest => simpa [htext] using hstart

/-- The display of a proper name reads as the same name. -/
theorem IsProper.exists_ofQualified?_display {name : Name} (h : name.IsProper)
    (offset : Nat) :
    ∃ other, ofQualified? ⟨name.display, offset⟩ = some other ∧ (other == name) = true := by
  obtain ⟨⟨_, hlocalStart⟩, hlocalColon⟩ := h.localPart
  have hstays : ∀ text : Text, ':' ∉ text → ∀ c ∈ text, (c != ':') = true := by
    intro text hcolon c hc
    have : c ≠ ':' := fun hc' => hcolon (hc' ▸ hc)
    simpa using this
  cases hqualifier : name.qualifier with
  | none =>
      have hdrop : name.localPart.text.dropWhile (· != ':') = [] := by
        have hwhole : (name.localPart.text ++ []).dropWhile (· != ':') = [].dropWhile _ :=
          List.dropWhile_append_of_pos (hstays _ hlocalColon)
        simpa using hwhole
      refine ⟨⟨none, ⟨name.localPart.text, offset⟩⟩, ?_, beq_eq_true_iff.mpr ⟨?_, rfl⟩⟩
      · simp [ofQualified?, display, hqualifier, hdrop, startsName_eq, hlocalStart, ofParts]
      · rw [hqualifier]
  | some qualifier =>
      obtain ⟨⟨_, hstart⟩, hcolon⟩ := h.qualifier qualifier hqualifier
      have hne : qualifier.text ≠ [] := by
        intro hnil
        simp [hnil] at hstart
      have hdrop : (qualifier.text ++ ':' :: name.localPart.text).dropWhile (· != ':') =
          ':' :: name.localPart.text := by
        rw [List.dropWhile_append_of_pos (hstays _ hcolon)]
        simp
      have htake : (qualifier.text ++ ':' :: name.localPart.text).takeWhile (· != ':') =
          qualifier.text := by
        rw [List.takeWhile_append_of_pos (hstays _ hcolon)]
        simp
      refine ⟨ofParts (some ⟨qualifier.text, offset⟩)
        ⟨name.localPart.text, offset + Text.size qualifier.text + 1⟩, ?_, ?_⟩
      · simp only [ofQualified?, display, hqualifier, hdrop, htake, startsName_eq]
        rw [if_pos (by simp [hstart, hlocalStart, hlocalColon])]
      · refine beq_eq_true_iff.mpr ⟨?_, rfl⟩
        simp [ofParts, Option.filter, hqualifier, hne]

/-! ## Names and their displays -/

/-- The display of a proper name starts with one of its parts, and so with no colon. -/
theorem IsProper.head?_display {name : Name} (h : name.IsProper) :
    name.display.head? ≠ some ':' := by
  have hpart {text : Text} (hpart : text.IsNamePart) (rest : Text) :
      (text ++ rest).head? ≠ some ':' := by
    obtain ⟨⟨_, hstart⟩, hcolon⟩ := hpart
    cases text with
    | nil => simp at hstart
    | cons c text =>
        intro hc
        obtain rfl := Option.some.inj hc
        exact hcolon List.mem_cons_self
  cases hqualifier : name.qualifier with
  | none =>
      have hlocal := hpart h.localPart []
      simpa [display, hqualifier] using hlocal
  | some qualifier =>
      have hfront := hpart (h.qualifier qualifier hqualifier) (':' :: name.localPart.text)
      simpa [display, hqualifier] using hfront

/-- A name is displayed as it was written, without a colon in front. -/
theorem display_of_ofQualified? {raw : Span} {name : Name} (hraw : raw.text.IsNameChars)
    (h : ofQualified? raw = some name) : name.display = raw.text.withoutColon := by
  have hhead := (isProper_of_ofQualified? hraw h).head?_display
  rcases ofQualified?_display h with hsame | hcolon
  · rw [hsame]
    cases hdisplay : name.display with
    | nil => rfl
    | cons c rest =>
        rw [hdisplay] at hhead
        rw [Text.withoutColon]
        intro other hcolon
        rw [hcolon] at hhead
        exact hhead rfl
  · rw [hcolon]
    rfl

/-- Proper names are equal if they are displayed alike. -/
theorem IsProper.beq_iff_display_eq {first second : Name} (hfirst : first.IsProper)
    (hsecond : second.IsProper) :
    (first == second) = true ↔ first.display = second.display := by
  constructor
  · intro h
    obtain ⟨hqualifier, hlocal⟩ := beq_eq_true_iff.mp h
    cases hfirstQualifier : first.qualifier with
    | none =>
        have hnone : second.qualifier = none := by simpa [hfirstQualifier] using hqualifier.symm
        simp only [display, hfirstQualifier, hnone, hlocal]
    | some qualifier =>
        rw [hfirstQualifier] at hqualifier
        obtain ⟨qualifier', hsome, htext⟩ := Option.map_eq_some_iff.mp hqualifier.symm
        simp only [display, hfirstQualifier, hsome, hlocal, htext]
  · intro h
    obtain ⟨other, hread, hother⟩ := hfirst.exists_ofQualified?_display 0
    obtain ⟨other', hread', hother'⟩ := hsecond.exists_ofQualified?_display 0
    rw [h, hread'] at hread
    obtain rfl := Option.some.inj hread
    exact beq_trans (beq_symm hother) hother'

end Name

end XmlOutline
