import XmlOutline.Proofs.Derivation.Soundness
import XmlOutline.Proofs.Nodes

/-!
# Texts among siblings

A run of text is read as far as it goes, so two runs never follow one another as
tokens (`TokenStream.Yields.separated`).  Then neither do two texts among the
children of an element, even if blank runs between markup were left out.  At the top
level there is no text at all.
-/

namespace XmlOutline

/-- No two runs of text follow one another. -/
def Token.Separated (tokens : List Token) : Prop :=
  ∀ first second, ¬[Token.text first, Token.text second] <:+: tokens

namespace Node

/-- The node is a run of text. -/
def isText : Node → Bool
  | text _ _ => true
  | _ => false

/-- Of two siblings in a row at most one is a text. -/
def Separated : List Node → Prop
  | node :: next :: rest => (node.isText = true → next.isText = false) ∧ Separated (next :: rest)
  | _ => True

/-- No two texts follow one another below the node. -/
def SeparatesText : Node → Prop
  | element _ _ _ children => Separated children
  | _ => True

variable {node : Node} {nodes : List Node}

theorem separated_cons_iff :
    Separated (node :: nodes) ↔
      (node.isText = true → nodes.head?.any isText = false) ∧ Separated nodes := by
  cases nodes with
  | nil => simp [Separated]
  | cons next rest => simp [Separated]

end Node

/-! ## Tokens -/

namespace TokenStream

variable {start stop : TokenStream} {tokens : List Token}

theorem Yields.separated (h : Yields start tokens stop) : Token.Separated tokens := by
  intro first second hwithin
  obtain ⟨before, after, rfl⟩ := hwithin
  obtain ⟨_, hyields, _⟩ := yields_append_iff.mp h
  obtain ⟨_, _, hyields⟩ := yields_append_iff.mp hyields
  cases hyields with
  | @cons _ found next _ _ _ hskips hrest hstep hyields =>
      obtain ⟨_, hmay, _⟩ := spelled_of_step hrest hstep
      have hbehind := behind_text_of_step hrest hstep
      have hregion : next.region = .content := by
        obtain ⟨_, _, _, hfollowing⟩ := step_eq_ok_iff.mp hstep
        have hfound : found.region = .content := by simpa [Token.mayStandIn] using hmay
        rw [hfound] at hfollowing
        exact (congrArg Prod.fst hfollowing).symm
      cases hyields with
      | cons hskips' hrest' hstep' _ =>
          obtain rfl := hskips'.eq_of_inside (Or.inl hregion)
          obtain ⟨hspelled, _⟩ := spelled_of_step hrest' hstep'
          obtain ⟨hreads, _⟩ := whole_of_step (by rw [hregion]; decide) hrest' hstep'
          -- the second run would start with markup
          cases hspelled with
          | text hrun hne =>
              have hmarkup := hbehind.resolve_left hrest'
              rw [hreads.rest_eq] at hmarkup
              cases htext : second.text with
              | nil => exact hne htext
              | cons c rest =>
                  have hc : c = '<' := by simpa [Token.span, htext] using hmarkup
                  refine hrun.no_markup ?_
                  rw [htext, hc]
                  exact List.mem_cons_self

end TokenStream

/-! ## Nodes -/

namespace Token

variable {token : Token} {tokens first second : List Token}

theorem Separated.of_infix (h : Separated tokens) (hwithin : first <:+: tokens) :
    Separated first :=
  fun run run' hruns => h run run' (hruns.trans hwithin)

theorem Separated.not_text {run : Span} (h : Separated (.text run :: tokens)) :
    tokens.head?.any isText = false := by
  cases tokens with
  | nil => rfl
  | cons token tokens =>
      cases token with
      | text run' => exact absurd (List.prefix_append _ _).isInfix (h run run')
      | _ => rfl

end Token

variable {source : Text} {options : ParseOptions}

mutual

theorem ElementTokens.separated {tokens : List Token} {node : Node}
    (h : ElementTokens source options tokens node) (hseparated : Token.Separated tokens) :
    node.All Node.SeparatesText :=
  match h with
  | .empty first name attributes last => ⟨trivial, trivial⟩
  | @ElementTokens.closed _ _ first name attributes tagEnd content children last closing _
      hcontent => by
      have hwithin : content <:+: .tagStart first name :: (attributes.map .tagAttribute ++
          .tagEnd tagEnd :: (content ++ [.closeTag last closing])) :=
        ⟨.tagStart first name :: (attributes.map .tagAttribute ++ [.tagEnd tagEnd]),
          [.closeTag last closing], by simp⟩
      obtain ⟨hchildren, hall, _⟩ := hcontent.separated (hseparated.of_infix hwithin)
      exact ⟨hchildren, hall⟩

/-- The first child is a text only if the first token is a run of text. -/
theorem ContentTokens.separated {tokens : List Token} {nodes : List Node}
    (h : ContentTokens source options tokens nodes) (hseparated : Token.Separated tokens) :
    Node.Separated nodes ∧ Node.AllList Node.SeparatesText nodes ∧
      (nodes.head?.any Node.isText = true → tokens.head?.any Token.isText = true) :=
  match h with
  | .nil => ⟨trivial, trivial, fun h => nomatch h⟩
  | .element helement hrest => by
      obtain ⟨hnodes, hall, _⟩ :=
        hrest.separated (hseparated.of_infix (List.suffix_append _ _).isInfix)
      have helementAll :=
        helement.separated (hseparated.of_infix (List.prefix_append _ _).isInfix)
      cases helement with
      | empty | closed =>
          exact ⟨Node.separated_cons_iff.mpr ⟨(fun h => nomatch h), hnodes⟩,
            ⟨helementAll, hall⟩, fun h => nomatch h⟩
  | .text _ hrest => by
      obtain ⟨hnodes, hall, hhead⟩ :=
        hrest.separated (hseparated.of_infix (List.suffix_cons _ _).isInfix)
      refine ⟨Node.separated_cons_iff.mpr ⟨fun _ => ?_, hnodes⟩, ⟨trivial, hall⟩, fun _ => rfl⟩
      have hnext := hseparated.not_text
      simpa [hnext] using hhead
  | .blank _ hrest => by
      obtain ⟨hnodes, hall, _⟩ :=
        hrest.separated (hseparated.of_infix (List.suffix_cons _ _).isInfix)
      exact ⟨hnodes, hall, fun _ => rfl⟩
  | .cdata _ _ hrest | .comment _ _ hrest | .instruction _ _ _ hrest => by
      obtain ⟨hnodes, hall, _⟩ :=
        hrest.separated (hseparated.of_infix (List.suffix_cons _ _).isInfix)
      exact ⟨Node.separated_cons_iff.mpr ⟨(fun h => nomatch h), hnodes⟩, ⟨trivial, hall⟩,
        fun h => nomatch h⟩

end

/-! ## Documents -/

/-- The node may stand beside the root element. -/
def Node.isAside : Node → Bool
  | comment _ => true
  | instruction _ _ _ => true
  | unsupported _ _ => true
  | _ => false

/-- Nothing is below such nodes. -/
theorem Node.allList_of_aside {property : Node → Prop} {nodes : List Node}
    (h : ∀ node ∈ nodes, node.isAside = true)
    (hproperty : ∀ node, node.isAside = true → property node) : AllList property nodes := by
  induction nodes with
  | nil => trivial
  | cons node nodes ih =>
      have haside := h node List.mem_cons_self
      have hnode := hproperty node haside
      refine ⟨?_, ih fun other hother => h other (List.mem_cons_of_mem _ hother)⟩
      cases node with
      | comment | instruction | unsupported => exact hnode
      | _ => cases haside

theorem Node.separatesText_of_aside {node : Node} (h : node.isAside = true) :
    node.SeparatesText := by
  cases node with
  | comment | instruction | unsupported => trivial
  | _ => cases h

private theorem aside_snoc {nodes : List Node} {node : Node} (hnode : node.isAside = true)
    (h : ∀ other ∈ nodes, other.isAside = true) :
    ∀ other ∈ nodes ++ [node], other.isAside = true := by
  intro other hother
  rcases List.mem_append.mp hother with hother | hother
  · exact h other hother
  · rw [List.mem_singleton.mp hother]
    exact hnode

theorem PrologTokens.aside {tokens : List Token} {nodes : List Node}
    (h : PrologTokens source tokens nodes) : ∀ node ∈ nodes, node.isAside = true := by
  induction h with
  | nil | declaration => simp
  | comment _ _ _ ih => exact aside_snoc rfl ih
  | instruction _ _ _ _ ih => exact aside_snoc rfl ih
  | doctype _ _ ih => exact aside_snoc rfl ih
  | subset _ _ _ _ ih => exact aside_snoc rfl ih
  | blank _ _ ih => exact ih

theorem EpilogTokens.aside {tokens : List Token} {nodes : List Node}
    (h : EpilogTokens tokens nodes) : ∀ node ∈ nodes, node.isAside = true := by
  induction h with
  | nil => simp
  | comment _ _ _ ih => exact aside_snoc rfl ih
  | instruction _ _ _ _ ih => exact aside_snoc rfl ih
  | blank _ _ ih => exact ih

/-- At the top level a document has one element and no text. -/
theorem Document.separated_of_parse {document : Document}
    (h : Document.parse source options = .ok document) :
    Node.AllList Node.SeparatesText document.children ∧
      ∃ (before later : List Node) (span : Span) (name : Name) (attributes : List Attribute)
        (children : List Node),
        document.children = before ++ .element span name attributes children :: later ∧
        (∀ node ∈ before, node.isAside = true) ∧ ∀ node ∈ later, node.isAside = true := by
  obtain ⟨tokens, htokens, _, hdocument⟩ := documentTokens_of_parse h
  obtain ⟨_, _, hyields, _, _⟩ := TokenStream.tokens_eq_iff.mp htokens
  have hseparated := hyields.separated
  generalize document.children = nodes at hdocument ⊢
  cases hdocument with
  | @intro before middle after nodes later root hprolog hroot hepilog =>
      have hwithin : middle <:+: before ++ middle ++ after := ⟨before, after, rfl⟩
      have hall := hroot.separated (hseparated.of_infix hwithin)
      refine ⟨Node.allList_append.mpr ⟨Node.allList_append.mpr
        ⟨Node.allList_of_aside hprolog.aside fun _ => Node.separatesText_of_aside, hall, trivial⟩,
        Node.allList_of_aside hepilog.aside fun _ => Node.separatesText_of_aside⟩, nodes, later, ?_⟩
      cases hroot with
      | empty | closed =>
          exact ⟨_, _, _, _, List.append_cons .. |>.symm, hprolog.aside, hepilog.aside⟩

end XmlOutline
