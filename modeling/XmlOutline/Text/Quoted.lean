import XmlOutline.Text.Basic
import XmlOutline.Text.Invisible

/-!
# Quoted literals

How messages show a character or a text so that every part of it is visible:
between quotes, with a backslash before quotes and backslashes, with short
escapes for the common control characters, and with the code in hexadecimal for
every other invisible character.

Main statement: `isVisible_quote`, with `isVisible_quoteChar` for one character.
-/

namespace XmlOutline

namespace Text

/-- One character of a literal between `quote` characters. -/
def escape (quote c : Char) : String :=
  if c = '\x00' then "\\0"
  else if c = '\t' then "\\t"
  else if c = '\n' then "\\n"
  else if c = '\r' then "\\r"
  else if c = quote || c = '\\' then String.ofList ['\\', c]
  else if isInvisible c then
    "\\u\x7b" ++ String.ofList (Nat.toDigits 16 c.toNat) ++ "\x7d"
  else String.singleton c

/-- A character between single quotes. -/
def quoteChar (c : Char) : String := "'" ++ escape '\'' c ++ "'"

/-- A text between double quotes. -/
def quote (text : Text) : String := "\"" ++ String.join (text.map (escape '"')) ++ "\""

/-! ## Literals are visible -/

/-- All of it can be made out: no character of it is in a range of invisible ones. -/
def IsVisible (literal : String) : Prop :=
  ∀ c ∈ literal.toList, ∀ ranges ∈ invisibleClasses, ∀ range ∈ ranges,
    ¬(range.1 ≤ c.toNat ∧ c.toNat ≤ range.2)

theorem isVisible_iff {literal : String} :
    IsVisible literal ↔ ∀ c ∈ literal.toList, isInvisible c = false := by
  simp only [IsVisible, ← Bool.not_eq_true, isInvisible_eq_true_iff, not_exists, not_and]

theorem IsVisible.append {first second : String} (hfirst : IsVisible first)
    (hsecond : IsVisible second) : IsVisible (first ++ second) := by
  intro c hc
  rw [String.toList_append] at hc
  rcases List.mem_append.mp hc with hc | hc
  · exact hfirst c hc
  · exact hsecond c hc

/-- What is written in ASCII, from the space to the tilde, is visible. -/
theorem isVisible_of_ascii {literal : String}
    (h : ∀ c ∈ literal.toList, 0x20 ≤ c.toNat ∧ c.toNat < 0x7F) : IsVisible literal :=
  isVisible_iff.mpr fun c hc => isInvisible_eq_false_of_ascii (h c hc).1 (h c hc).2

/-- A number is visible in any of the bases up to sixteen. -/
theorem isVisible_toDigits {base : Nat} (hbase : 1 < base) (hle : base ≤ 16) (number : Nat) :
    IsVisible (String.ofList (Nat.toDigits base number)) := by
  have hdigit : ∀ d < 16, 0x20 ≤ d.digitChar.toNat ∧ d.digitChar.toNat < 0x7F := by decide
  refine isVisible_of_ascii fun c hc => ?_
  rw [String.toList_ofList] at hc
  -- the last digit comes off the end
  induction number using Nat.strongRecOn with
  | ind number ih =>
      rw [Nat.toDigits_eq_if hbase] at hc
      split at hc
      · rename_i hlast
        obtain rfl := List.mem_singleton.mp hc
        exact hdigit number (by omega)
      · rename_i hmore
        rcases List.mem_append.mp hc with hc | hc
        · exact ih (number / base) (Nat.div_lt_self (by omega) hbase) hc
        · obtain rfl := List.mem_singleton.mp hc
          have hlast : number % base < base := Nat.mod_lt _ (by omega)
          exact hdigit (number % base) (by omega)

theorem isVisible_escape {mark : Char} (hmark : isInvisible mark = false) (c : Char) :
    IsVisible (escape mark c) := by
  have hbackslash : isInvisible '\\' = false :=
    isInvisible_eq_false_of_ascii (by decide) (by decide)
  unfold escape
  split
  · exact isVisible_of_ascii (by simp)
  split
  · exact isVisible_of_ascii (by simp)
  split
  · exact isVisible_of_ascii (by simp)
  split
  · exact isVisible_of_ascii (by simp)
  split
  · -- a quote or a backslash behind a backslash
    rename_i hc
    simp only [Bool.or_eq_true, decide_eq_true_eq] at hc
    rcases hc with rfl | rfl
    · exact isVisible_iff.mpr (by simp [hmark, hbackslash])
    · exact isVisible_iff.mpr (by simp [hbackslash])
  split
  · have hopening : IsVisible "\\u\x7b" := isVisible_of_ascii (by simp)
    have hclosing : IsVisible "\x7d" := isVisible_of_ascii (by simp)
    exact (hopening.append (isVisible_toDigits (by decide) (by decide) _)).append hclosing
  · rename_i hc
    exact isVisible_iff.mpr (by simpa using hc)

/-- A literal for a character is visible. -/
theorem isVisible_quoteChar (c : Char) : IsVisible (quoteChar c) := by
  have hmark : IsVisible "'" := isVisible_of_ascii (by simp)
  have hescape : IsVisible (escape '\'' c) := isVisible_escape (by decide +kernel) c
  exact (hmark.append hescape).append hmark

/-- A literal for a text is visible. -/
theorem isVisible_quote (text : Text) : IsVisible (quote text) := by
  have hmark : IsVisible "\"" := isVisible_of_ascii (by simp)
  have hescapes : IsVisible (String.join (text.map (escape '"'))) := by
    intro d hd
    rw [String.toList_join, List.mem_flatMap] at hd
    obtain ⟨_, hword, hd⟩ := hd
    obtain ⟨c, _, rfl⟩ := List.mem_map.mp hword
    exact isVisible_escape (by decide +kernel) c d hd
  exact (hmark.append hescapes).append hmark

end Text

end XmlOutline
