import XmlOutline.Proofs.RoundTrip.Siblings
import XmlOutline.Proofs.Tiling.Elements

/-!
# What becomes of the text in elements

Between the tags of an element there are runs of character data and markup, one in turn
with the other, and the children are the markup and the runs that are kept.  A run is left
out only if blank text is not kept and the run is blank, so a run with one character that
is not blank is a child, exactly as it is written.

What is blank is a matter of Unicode.  The four characters that separate markup are, but
so are others, like the no-break space; an element with nothing else in it has no children
(`Document.blank_of_parse`).

Main statement: `Document.woven_of_parse`.
-/

namespace XmlOutline

variable {source : Text} {options : ParseOptions} {document : Document}

/-- Beside the root element there are no elements. -/
theorem Node.isWoven_of_aside {node : Node} (h : node.isAside = true) :
    node.IsWoven source options := by
  cases node with
  | comment | instruction | unsupported => trivial
  | _ => cases h

/-- In all elements of a derivation runs and markup are woven. -/
theorem DocumentTokens.woven {tokens : List Token} {nodes : List Node} {stop : TokenStream}
    (h : DocumentTokens source options tokens nodes)
    (hyields : TokenStream.Yields (.ofSource source) tokens stop) :
    Node.AllList (Node.IsWoven source options) nodes := by
  cases h with
  | @intro before middle after nodes later root hprolog hroot hepilog =>
      obtain ⟨behind, hyields, _⟩ := TokenStream.yields_append_iff.mp hyields
      obtain ⟨ahead, hbefore, hyields⟩ := TokenStream.yields_append_iff.mp hyields
      obtain ⟨_, _, hin⟩ := hbefore.placed (TokenStream.ofSource_in source)
      have hwoven := (TokenStream.weavesElement_of_elementTokens hroot hyields hin).woven
      refine Node.allList_append.mpr ⟨Node.allList_append.mpr ⟨?_, hwoven, trivial⟩, ?_⟩
      · exact Node.allList_of_aside hprolog.aside fun _ => Node.isWoven_of_aside
      · exact Node.allList_of_aside hepilog.aside fun _ => Node.isWoven_of_aside

/-- A run with a character that is not blank is kept in any case. -/
theorem ParseOptions.keeps_of_not_blank {run : Span} {c : Char} (hmem : c ∈ run.text)
    (hblank : Text.isBlankChar c = false) : run.text ≠ [] ∧ options.Keeps run := by
  refine ⟨List.ne_nil_of_mem hmem, .inr ?_⟩
  rw [Text.isBlank, List.all_eq_false]
  exact ⟨c, hmem, by simp [hblank]⟩

/-- In every element, at any depth, runs of character data and markup are woven; and every
run with at least one character that is not blank is a text among the children, just as
it is written. -/
theorem Document.woven_of_parse (h : Document.parse source options = .ok document) :
    ∀ depth span name attributes children,
      (depth, .element span name attributes children) ∈ Node.preorderList 0 document.children →
        ∃ runs, Node.ElementWoven source options span name attributes runs children ∧
          ∀ run ∈ runs, (∃ c ∈ run.text, Text.isBlankChar c = false) →
            .text run run ∈ children := by
  intro depth span name attributes children hentry
  obtain ⟨tokens, htokens, _, hdocument⟩ := documentTokens_of_parse h
  obtain ⟨_, _, hyields, _⟩ := TokenStream.tokens_eq_iff.mp htokens
  obtain ⟨runs, hwoven⟩ := (Node.allList_iff _ 0).mp (hdocument.woven hyields) _ hentry
  refine ⟨runs, hwoven, fun run hmem hchar => ?_⟩
  obtain ⟨c, hc, hblank⟩ := hchar
  obtain ⟨hne, hkeeps⟩ := ParseOptions.keeps_of_not_blank hc hblank
  cases hwoven with
  | empty => cases hmem
  | closed _ _ hbetween _ _ => exact hbetween.text_mem hmem hne hkeeps

/-- Blank text between markup is left out, and what is not blank is kept with the blanks
around it. -/
theorem Document.woven_of_parse_nested :
    ∃ document, Document.parse "<a> <b>&#32; x\u00A0</b>\n<c k='v' /></a>".toList = .ok document ∧
      ∀ depth span name attributes children,
        (depth, .element span name attributes children) ∈ Node.preorderList 0 document.children →
          ∃ runs, Node.ElementWoven "<a> <b>&#32; x\u00A0</b>\n<c k='v' /></a>".toList {} span
            name attributes runs children ∧
            ∀ run ∈ runs, (∃ c ∈ run.text, Text.isBlankChar c = false) →
              .text run run ∈ children := by
  obtain ⟨document, h⟩ : ∃ document,
      Document.parse "<a> <b>&#32; x\u00A0</b>\n<c k='v' /></a>".toList = .ok document :=
    exists_eq_ok_of_isOk (by decide +kernel)
  exact ⟨document, h, Document.woven_of_parse h⟩

/-- The run between the tags has a character that separates no markup, and yet the element
has no children. -/
theorem Document.blank_of_parse :
    ∃ name, Document.parse "<a>\u00A0</a>".toList =
        .ok ⟨[.element ⟨"<a>\u00A0</a>".toList, 0⟩ name [] []], "<a>\u00A0</a>".toList⟩ ∧
      CharClass.isSpace '\u00A0' = false := by
  have htokens : Token.ofSource "<a>\u00A0</a>".toList =
      ([.tagStart ⟨"<a".toList, 0⟩ ⟨none, ⟨"a".toList, 1⟩⟩, .tagEnd ⟨">".toList, 2⟩,
        .text ⟨"\u00A0".toList, 3⟩, .closeTag ⟨"</a>".toList, 5⟩ ⟨none, ⟨"a".toList, 7⟩⟩],
        none) := by
    with_unfolding_all rfl
  refine ⟨⟨none, ⟨"a".toList, 1⟩⟩, ?_, by decide⟩
  unfold Document.parse
  rw [htokens]
  rfl

end XmlOutline
