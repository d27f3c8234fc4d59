import XmlOutline.Proofs.Derivation.Nodes
import XmlOutline.Proofs.Derivation.Soundness

/-!
# What documents hold

The texts in a document that was read are those of its tokens, and so they are made
of the characters that their constructs allow.  A node with such texts is
`Node.Lawful`.

Main statement: `Document.lawful_of_parse`.
-/

namespace XmlOutline

/-- The name and the value of the attribute are as reading leaves them. -/
structure Attribute.Lawful (attr : Attribute) : Prop where
  name : attr.name.IsProper
  value : ∃ quote, attr.value.text.IsAttributeValue quote

/-- The texts of the node are as reading leaves them. -/
def Node.Lawful : Node → Prop
  | element _ name attributes _ => name.IsProper ∧ ∀ attr ∈ attributes, attr.Lawful
  | text _ content => content.text.IsCharacterData ∧ content.text ≠ []
  | cdata _ content => content.text.IsSectionContent
  | comment content => content.text.IsCommentContent
  | instruction _ target content =>
      target.text.IsName ∧ ∀ data ∈ content, data.text.IsInstructionContent ∧ data.text ≠ []
  | unsupported _ _ => True

theorem Token.lawful_of_leaf? {token : Token} {node : Node} (hspelled : token.Spelled)
    (hleaf : token.leaf? = some node) : node.Lawful := by
  cases hspelled with
  | text hrun hne =>
      obtain rfl := Option.some.inj hleaf
      exact ⟨hrun, hne⟩
  | cdata hcontent | comment hcontent =>
      obtain rfl := Option.some.inj hleaf
      exact hcontent
  | doctype =>
      obtain rfl := Option.some.inj hleaf
      trivial
  | instruction htarget hgap hcontent =>
      obtain rfl := Option.some.inj hleaf
      refine ⟨htarget, fun data hdata => ?_⟩
      simp only [Option.mem_def, Option.filter_eq_some_iff, Option.some.injEq] at hdata
      obtain ⟨rfl, hne⟩ := hdata
      exact ⟨hcontent, by simpa using hne⟩
  | _ => cases hleaf

private theorem lawful_of_startTag {first : Span} {name : Name} {attributes : List Attribute}
    (hfirst : (Token.tagStart first name).Spelled)
    (hattributes : ∀ attr ∈ attributes, (Token.tagAttribute attr).Spelled) :
    name.IsProper ∧ ∀ attr ∈ attributes, attr.Lawful := by
  refine ⟨?_, fun attr hattr => ?_⟩
  · cases hfirst with
    | tagStart hchars hname => exact Name.isProper_of_ofQualified? hchars hname
  · cases hattributes attr hattr with
    | tagAttribute hchars _ _ _ hvalue hname =>
        exact ⟨Name.isProper_of_ofQualified? hchars hname, _, hvalue⟩

/-- Tokens that are spelled are read as nodes with the texts they are spelled with. -/
theorem Token.vouch_lawful {source : Text} {tokens : List Token}
    (hspelled : ∀ token ∈ tokens, token.Spelled) : Token.Vouch source Node.Lawful tokens where
  leaf token htoken _ hleaf := lawful_of_leaf? (hspelled token htoken) hleaf
  subset _ _ _ := trivial
  element first name _ _ _ hends _ hattributes :=
    lawful_of_startTag (hspelled (.tagStart first name) (hends.subset (by simp)))
      fun attr hattr => hspelled _ (hattributes attr hattr)

/-- The texts of a document are as reading leaves them. -/
theorem Document.lawful_of_parse {source : Text} {options : ParseOptions} {document : Document}
    (h : Document.parse source options = .ok document) :
    Node.AllList Node.Lawful document.children := by
  obtain ⟨tokens, htokens, _, hdocument⟩ := documentTokens_of_parse h
  exact hdocument.all (Token.vouch_lawful (Token.placed_of_ofSource htokens).2)

end XmlOutline
