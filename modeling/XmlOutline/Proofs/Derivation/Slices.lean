import XmlOutline.Proofs.Derivation.Lockstep
import XmlOutline.Proofs.Derivation.Nodes

/-!
# Spans in documents

A span in a document stands for a piece of the source: the source has a slice between
its two offsets, and the slice is its text (`Span.IsSliceOf`).  Two facts carry this from
the source to the tree.  A token is a slice, and all its parts lie in it at the offsets
that they have (`Span.IsPartOf`), so these are slices too.  And the spans that are put
together reach from one token to a later one.

That putting two spans together never asks for a slice that the source does not have is
a matter of what can go wrong at all, and so it comes from `Document.liesIn_of_parse`.

Main statement: `Document.isSliceOf_of_parse`.
-/

namespace XmlOutline

variable {source : Text} {tokens : List Token} {token : Token} {node : Node}

/-! ## All spans of a name, a token and a node -/

/-- The spans in a name. -/
def Name.spans (name : Name) : List Span := name.qualifier.toList ++ [name.localPart]

/-- The spans in an attribute. -/
def Attribute.spans (attr : Attribute) : List Span := attr.span :: attr.value :: attr.name.spans

/-- The spans in a token. -/
def Token.spans : Token → List Span
  | instruction span target content => span :: target :: content.toList
  | comment span content => [span, content]
  | tagStart span name => span :: name.spans
  | tagAttribute attr => attr.spans
  | closeTag span name => span :: name.spans
  | cdata span content => [span, content]
  | token => [token.span]

/-- The spans in a node, without those of the nodes below it. -/
def Node.spans : Node → List Span
  | element span name attributes _ => span :: (name.spans ++ attributes.flatMap Attribute.spans)
  | text span content => [span, content]
  | cdata span content => [span, content]
  | comment content => [content]
  | instruction span target content => span :: target :: content.toList
  | unsupported span _ => [span]

theorem Name.mem_spans_ofParts {qualifier : Option Span} {localPart span : Span}
    (h : span ∈ (ofParts qualifier localPart).spans) :
    qualifier = some span ∨ span = localPart := by
  simp only [spans, ofParts, List.mem_append, Option.mem_toList, List.mem_singleton] at h
  exact h.imp_left fun hqualifier => (Option.filter_eq_some_iff.mp hqualifier).1

/-- The parts of a name lie in what it was read from. -/
theorem Name.isPartOf_of_ofQualified? {raw span : Span} {name : Name}
    (h : ofQualified? raw = some name) (hspan : span ∈ name.spans) : span.IsPartOf raw := by
  have hsplit : raw.text.takeWhile (· != ':') ++ raw.text.dropWhile (· != ':') = raw.text :=
    List.takeWhile_append_dropWhile
  cases hdrop : raw.text.dropWhile (· != ':') with
  | nil =>
      simp only [ofQualified?, hdrop, Option.ite_none_right_eq_some, Option.some.injEq] at h
      obtain ⟨_, rfl⟩ := h
      rcases mem_spans_ofParts hspan with hnone | rfl
      · cases hnone
      · exact .refl _
  | cons colon localText =>
      obtain rfl : colon = ':' := by
        have hcolon := List.head?_dropWhile_not (· != ':') raw.text
        simpa [hdrop] using hcolon
      simp only [ofQualified?, hdrop, Option.ite_none_right_eq_some, Option.some.injEq] at h
      obtain ⟨_, rfl⟩ := h
      rw [hdrop] at hsplit
      rcases mem_spans_ofParts hspan with hqualifier | rfl
      · obtain rfl := Option.some.inj hqualifier
        exact ⟨[], ':' :: localText, hsplit.symm, rfl⟩
      · refine ⟨raw.text.takeWhile (· != ':') ++ [ ':' ], [], ?_, ?_⟩
        · show raw.text = _ ++ localText ++ []
          rw [List.append_nil, ← List.append_cons, hsplit]
        · rw [Text.size_append, ← Nat.add_assoc]
          rfl

/-- The parts of a token lie in it. -/
theorem Token.Spelled.isPartOf (h : token.Spelled) {span : Span} (hspan : span ∈ token.spans) :
    span.IsPartOf token.span := by
  cases h with
  | @instruction start target gap content =>
      rcases List.mem_cons.mp hspan with rfl | hspan
      · exact .refl _
      rcases List.mem_cons.mp hspan with rfl | hspan
      · exact ⟨"<?".toList, gap ++ content ++ "?>".toList, by simp [Token.span], rfl⟩
      · obtain ⟨hcontent, _⟩ := Option.filter_eq_some_iff.mp (Option.mem_toList.mp hspan)
        obtain rfl := Option.some.inj hcontent
        refine ⟨"<?".toList ++ target ++ gap, "?>".toList, by simp [Token.span], ?_⟩
        rw [Text.size_append, Text.size_append, ← Nat.add_assoc, ← Nat.add_assoc]
        rfl
  | @comment start content =>
      rcases List.mem_cons.mp hspan with rfl | hspan
      · exact .refl _
      · obtain rfl := List.mem_singleton.mp hspan
        exact ⟨"<!--".toList, "-->".toList, rfl, rfl⟩
  | @cdata start content =>
      rcases List.mem_cons.mp hspan with rfl | hspan
      · exact .refl _
      · obtain rfl := List.mem_singleton.mp hspan
        exact ⟨"<![CDATA[".toList, "]]>".toList, rfl, rfl⟩
  | @tagStart start raw name hchars hname =>
      rcases List.mem_cons.mp hspan with rfl | hspan
      · exact .refl _
      · have hraw : (⟨raw, start + 1⟩ : Span).IsPartOf ⟨"<".toList ++ raw, start⟩ :=
          ⟨"<".toList, [], by simp, rfl⟩
        exact (Name.isPartOf_of_ofQualified? hname hspan).trans hraw
  | @closeTag start raw gap name hchars hgap hname =>
      rcases List.mem_cons.mp hspan with rfl | hspan
      · exact .refl _
      · have hraw : (⟨raw, start + 2⟩ : Span).IsPartOf
            ⟨"</".toList ++ raw ++ gap ++ [ '>' ], start⟩ :=
          ⟨"</".toList, gap ++ [ '>' ], by simp, rfl⟩
        exact (Name.isPartOf_of_ofQualified? hname hspan).trans hraw
  | @tagAttribute start raw before after value name quote hchars _ _ _ _ hname =>
      rcases List.mem_cons.mp hspan with rfl | hspan
      · exact .refl _
      rcases List.mem_cons.mp hspan with rfl | hspan
      · refine ⟨raw ++ (before ++ [ '=' ] ++ after) ++ [quote], [quote], rfl, ?_⟩
        show start + raw.size + Text.size (before ++ [ '=' ] ++ after) + Text.size [quote] =
          start + Text.size (raw ++ (before ++ [ '=' ] ++ after) ++ [quote])
        rw [Text.size_append _ [quote], Text.size_append raw, ← Nat.add_assoc, ← Nat.add_assoc]
      · have hraw : (⟨raw, start⟩ : Span).IsPartOf
            ⟨raw ++ (before ++ [ '=' ] ++ after) ++ [quote] ++ value ++ [quote], start⟩ :=
          ⟨[], before ++ [ '=' ] ++ after ++ [quote] ++ value ++ [quote], by simp, rfl⟩
        exact (Name.isPartOf_of_ofQualified? hname hspan).trans hraw
  | _ =>
      obtain rfl := List.mem_singleton.mp hspan
      exact .refl _

/-- A leaf has no spans but those of its token. -/
theorem Token.mem_spans_of_leaf? (hleaf : token.leaf? = some node) {span : Span}
    (hspan : span ∈ node.spans) : span ∈ token.spans := by
  cases token with
  | text run =>
      obtain rfl := Option.some.inj hleaf
      simpa [Node.spans, spans, Token.span] using hspan
  | comment whole content =>
      obtain rfl := Option.some.inj hleaf
      exact List.mem_cons_of_mem _ hspan
  | cdata | instruction | doctype =>
      obtain rfl := Option.some.inj hleaf
      exact hspan
  | _ => cases hleaf

/-! ## Along a derivation -/

/-- All spans of nodes have a property if those of the tokens have it, and two of them put
together.  A declaration leaves no node, so its span is of no account. -/
theorem Token.vouch_spans {property : Span → Prop}
    (hspans : ∀ token ∈ tokens, (∀ span, token ≠ .declaration span) →
      ∀ span ∈ token.spans, property span)
    (hthrough : ∀ first last, [first, last].Sublist tokens → property first.span →
      property (.through source first.span last.span)) :
    Token.Vouch source (fun node => ∀ span ∈ node.spans, property span) tokens := by
  refine ⟨?_, ?_, ?_⟩
  · intro token htoken node hleaf span hspan
    refine hspans token htoken (fun other hother => ?_) span (mem_spans_of_leaf? hleaf hspan)
    rw [hother] at hleaf
    cases hleaf
  · intro first last hends span hspan
    obtain rfl := List.mem_singleton.mp hspan
    exact hthrough _ _ hends (hspans _ (hends.subset List.mem_cons_self)
      (fun _ h => Token.noConfusion h) _ List.mem_cons_self)
  · intro first name last attributes children hends _ hattributes span hspan
    have hfirst := hspans _ (hends.subset List.mem_cons_self) fun _ h => Token.noConfusion h
    rcases List.mem_cons.mp hspan with rfl | hspan
    · exact hthrough _ _ hends (hfirst _ List.mem_cons_self)
    rcases List.mem_append.mp hspan with hname | hattribute
    · exact hfirst span (List.mem_cons_of_mem _ hname)
    · obtain ⟨attr, hattr, hspan⟩ := List.mem_flatMap.mp hattribute
      exact hspans _ (hattributes attr hattr) (fun _ h => Token.noConfusion h) span hspan

/-- All spans of the node are slices of the source. -/
def Node.InSource (source : Text) (node : Node) : Prop :=
  ∀ span ∈ node.spans, span.IsSliceOf source

/-- Tokens of the source are read as nodes whose spans are slices of it. -/
theorem Token.vouch_inSource (hplaced : Token.Placed source tokens)
    (hspelled : ∀ token ∈ tokens, token.Spelled) :
    Token.Vouch source (Node.InSource source) tokens :=
  vouch_spans
    (fun token htoken _ _ hspan =>
      ((hspelled token htoken).isPartOf hspan).isSliceOf (hplaced.isSliceOf token htoken))
    fun _ _ hends _ => (hplaced.of_sublist hends).through.1

/-- Reading never asks for a slice that the text does not have; and every span in the
tree, at any depth, is what the text holds between its two offsets. -/
theorem Document.isSliceOf_of_parse (source : Text) (options : ParseOptions) :
    (∀ error, Document.parse source options = .error error →
      error.kind ≠ .parse .spanOutsideSource) ∧
    ∀ document, Document.parse source options = .ok document →
      document.source = source ∧
        ∀ entry ∈ Node.preorderList 0 document.children, ∀ span ∈ entry.2.spans,
          span.IsSliceOf source ∧ span.stop ≤ source.size := by
  constructor
  · intro error h
    obtain ⟨span, fault, rfl, hfault⟩ := liesIn_of_parse h
    intro hkind
    obtain rfl := ErrorKind.parse.inj hkind
    cases hfault
  · intro document h
    obtain ⟨tokens, htokens, hsource, hdocument⟩ := documentTokens_of_parse h
    obtain ⟨hplaced, hspelled⟩ := Token.placed_of_ofSource htokens
    have hall := (Node.allList_iff document.children 0).mp
      (hdocument.all (Token.vouch_inSource hplaced hspelled))
    refine ⟨hsource, fun entry hentry span hspan => ?_⟩
    have hslice : span.IsSliceOf source := hall entry hentry span hspan
    exact ⟨hslice, hslice.stop_le_size⟩

/-- A document behind a byte order mark, with a subset and characters of two and three
bytes; and a text that is none. -/
theorem Document.isSliceOf_of_parse_multibyte :
    (∃ (source : Text) (document : Document),
      source = "\uFEFF<!DOCTYPE r [<!ENTITY e 'ß'>]><p:é k='ü'>…<![CDATA[→]]><?é?></p:é>".toList ∧
      Document.parse source = .ok document ∧ document.source = source ∧
        ∀ entry ∈ Node.preorderList 0 document.children, ∀ span ∈ entry.2.spans,
          span.IsSliceOf source ∧ span.stop ≤ source.size) ∧
    ∃ error, Document.parse "<é>ü</e>".toList = .error error ∧
      error.kind ≠ .parse .spanOutsideSource := by
  constructor
  · obtain ⟨source, hsource⟩ : ∃ source : Text, source =
        "\uFEFF<!DOCTYPE r [<!ENTITY e 'ß'>]><p:é k='ü'>…<![CDATA[→]]><?é?></p:é>".toList :=
      ⟨_, rfl⟩
    have hreads : (Document.parse source).isOk = true := by
      rw [hsource]
      decide +kernel
    obtain ⟨document, h⟩ := exists_eq_ok_of_isOk hreads
    exact ⟨source, document, hsource, h, (Document.isSliceOf_of_parse source {}).2 document h⟩
  · obtain ⟨error, h⟩ : ∃ error, Document.parse "<é>ü</e>".toList = .error error :=
      exists_eq_error_of_isOk (by decide +kernel)
    exact ⟨error, h, (Document.isSliceOf_of_parse _ {}).1 error h⟩

end XmlOutline
