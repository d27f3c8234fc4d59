import XmlOutline.CharClass
import XmlOutline.Span

/-!
# Names of elements and attributes

A name has a local part and, before it, possibly a qualifier that stands for a
namespace.  Two names are equal if their texts are: where they were read does
not matter.

Main statement: `ofQualified?_display`, which says that reading a qualified name
keeps its text, a leading colon apart.
-/

namespace XmlOutline

/-- A name as written: `qualifier:localPart`, or only the local part. -/
structure Name where
  qualifier : Option Span
  localPart : Span

namespace Name

/-- A name from its parts.  An empty qualifier is none. -/
def ofParts (qualifier : Option Span) (localPart : Span) : Name :=
  ⟨qualifier.filter fun span => !span.text.isEmpty, localPart⟩

/-- The name as it is written. -/
def display (name : Name) : Text :=
  match name.qualifier with
  | some qualifier => qualifier.text ++ ':' :: name.localPart.text
  | none => name.localPart.text

/-- Names are compared by their texts. -/
def beq (first second : Name) : Bool :=
  first.qualifier.map Span.text == second.qualifier.map Span.text &&
    first.localPart.text == second.localPart.text

instance : BEq Name := ⟨beq⟩

/-- A name is compared with a text by what it displays. -/
def isWritten (name : Name) (text : Text) : Bool := name.display == text

theorem beq_eq_true_iff {first second : Name} :
    (first == second) = true ↔
      first.qualifier.map Span.text = second.qualifier.map Span.text ∧
        first.localPart.text = second.localPart.text := by
  show beq first second = true ↔ _
  simp [beq]

@[simp]
theorem isWritten_iff {name : Name} {text : Text} :
    name.isWritten text = true ↔ name.display = text := by
  simp [isWritten]

/-- Does the text begin like a name? -/
def startsName : Text → Bool
  | [] => false
  | c :: _ => CharClass.isNameStart c

/-- Splits a run of name characters at its only colon, if it has one.  The local
part begins like a name, and so does the qualifier unless it is empty. -/
def ofQualified? (raw : Span) : Option Name :=
  match raw.text.dropWhile (· != ':') with
  | [] => if startsName raw.text then some (ofParts none raw) else none
  | _ :: localText =>
      let qualifier := raw.text.takeWhile (· != ':')
      if (qualifier.isEmpty || startsName qualifier) && startsName localText &&
          !localText.elem ':' then
        some (ofParts (some ⟨qualifier, raw.start⟩)
          ⟨localText, raw.start + Text.size qualifier + 1⟩)
      else none

private theorem eq_takeWhile_append (p : Char → Bool) (text : Text) :
    text = text.takeWhile p ++ text.dropWhile p := List.takeWhile_append_dropWhile.symm

/-- Reading a qualified name keeps its text, but for a colon in front. -/
theorem ofQualified?_display {raw : Span} {name : Name} (h : ofQualified? raw = some name) :
    raw.text = name.display ∨ raw.text = ':' :: name.display := by
  have hsplit := eq_takeWhile_append (· != ':') raw.text
  cases hdrop : raw.text.dropWhile (· != ':') with
  | nil =>
      simp only [ofQualified?, hdrop, Option.ite_none_right_eq_some, Option.some.injEq] at h
      obtain ⟨_, rfl⟩ := h
      exact Or.inl rfl
  | cons colon localText =>
      have hcolon : colon = ':' := by
        have := List.head?_dropWhile_not (· != ':') raw.text
        simpa [hdrop] using this
      subst hcolon
      simp only [ofQualified?, hdrop, Option.ite_none_right_eq_some, Option.some.injEq] at h
      obtain ⟨_, rfl⟩ := h
      rw [hdrop] at hsplit
      cases hqualifier : raw.text.takeWhile (· != ':') with
      | nil =>
          rw [hqualifier] at hsplit
          exact Or.inr hsplit
      | cons c rest =>
          rw [hqualifier] at hsplit
          exact Or.inl hsplit

end Name

/-- An attribute of an element, with its value as written between the quotes. -/
structure Attribute where
  span : Span := {}
  name : Name
  value : Span
deriving BEq

end XmlOutline
