import XmlOutline.Proofs.Derivation.Rules
import XmlOutline.Proofs.Nodes

/-!
# Properties of all nodes that are derived

A rule of the grammar makes one node out of some of its tokens: of a single token that
is kept, of the first and the last token of a document type declaration with a subset,
or of the first and the last token of an element and the attributes between them.  If
each of these nodes has a property, the tokens vouch for it (`Token.Vouch`), and then
every node of a derivation has it, at any depth.

Main statement: `DocumentTokens.all`.
-/

namespace XmlOutline

/-- The node that a token alone is read as, where it is kept. -/
def Token.leaf? : Token → Option Node
  | text run => some (.text run run)
  | cdata span content => some (.cdata span content)
  | comment _ content => some (.comment content)
  | instruction span target content => some (.instruction span target content)
  | doctype span => some (.unsupported span .documentType)
  | _ => none

/-- The token ends an element with this name and these children. -/
def Token.Closes (name : Name) (children : List Node) : Token → Prop
  | emptyTagEnd _ => children = []
  | closeTag _ closing => (name == closing) = true
  | _ => False

variable {source : Text} {options : ParseOptions} {property : Node → Prop}
  {tokens : List Token} {token : Token} {nodes : List Node} {node : Node}

/-- Each node that a rule makes of these tokens has the property, whatever is below it. -/
structure Token.Vouch (source : Text) (property : Node → Prop) (tokens : List Token) : Prop where
  leaf : ∀ token ∈ tokens, ∀ node, token.leaf? = some node → property node
  subset : ∀ first last, [Token.subsetOpen first, .subsetClose last].Sublist tokens →
    property (.unsupported (.through source first last) .documentType)
  element : ∀ first name last attributes children,
    [Token.tagStart first name, last].Sublist tokens → last.Closes name children →
    (∀ attr ∈ attributes, .tagAttribute attr ∈ tokens) →
      property (.element (.through source first last.span) name attributes children)

theorem Token.name?_of_leaf? (hleaf : token.leaf? = some node) : node.name? = none := by
  cases token with
  | text | cdata | comment | instruction | doctype =>
      obtain rfl := Option.some.inj hleaf
      rfl
  | _ => cases hleaf

namespace Token.Vouch

theorem of_sublist {some : List Token} (h : Token.Vouch source property tokens)
    (hsome : some.Sublist tokens) : Token.Vouch source property some where
  leaf token htoken := h.leaf token (hsome.subset htoken)
  subset first last hpair := h.subset first last (hpair.trans hsome)
  element first name last attributes children hpair hcloses hattributes :=
    h.element first name last attributes children (hpair.trans hsome) hcloses
      fun attr hattr => hsome.subset (hattributes attr hattr)

/-- A leaf has no nodes below it. -/
theorem all_of_leaf? (h : Token.Vouch source property tokens) (htoken : token ∈ tokens)
    (hleaf : token.leaf? = some node) : node.All property := by
  have hnode := h.leaf token htoken node hleaf
  cases token with
  | text | cdata | comment | instruction | doctype =>
      obtain rfl := Option.some.inj hleaf
      exact hnode
  | _ => cases hleaf

/-- One more node that is read from one token. -/
theorem allList_snoc {before : List Token} (h : Token.Vouch source property (before ++ [token]))
    (hleaf : token.leaf? = some node)
    (hbefore : Token.Vouch source property before → Node.AllList property nodes) :
    Node.AllList property (nodes ++ [node]) :=
  Node.allList_append.mpr ⟨hbefore (h.of_sublist (List.sublist_append_left _ _)),
    h.all_of_leaf? (by simp) hleaf, trivial⟩

end Token.Vouch

/-! ## Along a derivation -/

mutual

theorem ElementTokens.all {tokens : List Token} {node : Node}
    (h : ElementTokens source options tokens node) (hvouch : Token.Vouch source property tokens) :
    node.All property :=
  match h with
  | .empty first name attributes last => by
      have hends : [Token.tagStart first name, .emptyTagEnd last].Sublist
          (.tagStart first name :: (attributes.map .tagAttribute ++ [.emptyTagEnd last])) :=
        .cons_cons _ (List.sublist_append_right _ _)
      have hnode := hvouch.element first name (.emptyTagEnd last) attributes [] hends rfl
        fun attr hattr => by simp [hattr]
      exact ⟨hnode, trivial⟩
  | @ElementTokens.closed _ _ first name attributes tagEnd content children last closing
      hname hcontent => by
      have hends : [Token.tagStart first name, .closeTag last closing].Sublist
          (.tagStart first name :: (attributes.map .tagAttribute ++
            .tagEnd tagEnd :: (content ++ [.closeTag last closing]))) :=
        .cons_cons _ (.trans (.cons _ (List.sublist_append_right _ _))
          (List.sublist_append_right _ _))
      have hinner : content.Sublist (.tagStart first name :: (attributes.map .tagAttribute ++
          .tagEnd tagEnd :: (content ++ [.closeTag last closing]))) :=
        .cons _ (.trans (.cons _ (List.sublist_append_left _ _)) (List.sublist_append_right _ _))
      have hnode := hvouch.element first name (.closeTag last closing) attributes children hends
        hname fun attr hattr => by simp [hattr]
      exact ⟨hnode, hcontent.all (hvouch.of_sublist hinner)⟩

theorem ContentTokens.all {tokens : List Token} {nodes : List Node}
    (h : ContentTokens source options tokens nodes)
    (hvouch : Token.Vouch source property tokens) : Node.AllList property nodes :=
  match h with
  | .nil => trivial
  | .element helement hrest =>
      ⟨helement.all (hvouch.of_sublist (List.sublist_append_left _ _)),
        hrest.all (hvouch.of_sublist (List.sublist_append_right _ _))⟩
  | .text _ hrest | .cdata _ _ hrest | .comment _ _ hrest | .instruction _ _ _ hrest =>
      ⟨hvouch.all_of_leaf? List.mem_cons_self rfl,
        hrest.all (hvouch.of_sublist (List.sublist_cons_self _ _))⟩
  | .blank _ hrest => hrest.all (hvouch.of_sublist (List.sublist_cons_self _ _))

end

theorem PrologTokens.all (h : PrologTokens source tokens nodes)
    (hvouch : Token.Vouch source property tokens) : Node.AllList property nodes := by
  induction h with
  | nil => trivial
  | declaration => trivial
  | comment _ _ _ ih => exact hvouch.allList_snoc rfl ih
  | instruction _ _ _ _ ih => exact hvouch.allList_snoc rfl ih
  | doctype _ _ ih => exact hvouch.allList_snoc rfl ih
  | @subset before inner nodes first last _ _ ih =>
      have hends : [Token.subsetOpen first, .subsetClose last].Sublist
          (before ++ (.subsetOpen first :: (inner ++ [.subsetClose last]))) :=
        .trans (.cons_cons _ (List.sublist_append_right _ _)) (List.sublist_append_right _ _)
      exact Node.allList_append.mpr ⟨ih (hvouch.of_sublist (List.sublist_append_left _ _)),
        hvouch.subset first last hends, trivial⟩
  | blank _ _ ih => exact ih (hvouch.of_sublist (List.sublist_append_left _ _))

theorem EpilogTokens.all (h : EpilogTokens tokens nodes)
    (hvouch : Token.Vouch source property tokens) : Node.AllList property nodes := by
  induction h with
  | nil => trivial
  | comment _ _ _ ih => exact hvouch.allList_snoc rfl ih
  | instruction _ _ _ _ ih => exact hvouch.allList_snoc rfl ih
  | blank _ _ ih => exact ih (hvouch.of_sublist (List.sublist_append_left _ _))

/-- What the tokens vouch for holds of every node that is derived from them. -/
theorem DocumentTokens.all (h : DocumentTokens source options tokens nodes)
    (hvouch : Token.Vouch source property tokens) : Node.AllList property nodes := by
  cases h with
  | @intro before middle after _ _ _ hprolog hroot hepilog =>
      have hfront : Token.Vouch source property (before ++ middle) :=
        hvouch.of_sublist (List.sublist_append_left _ _)
      refine Node.allList_append.mpr ⟨Node.allList_append.mpr ⟨?_, ?_, trivial⟩, ?_⟩
      · exact hprolog.all (hfront.of_sublist (List.sublist_append_left _ _))
      · exact hroot.all (hfront.of_sublist (List.sublist_append_right _ _))
      · exact hepilog.all (hvouch.of_sublist (List.sublist_append_right _ _))

end XmlOutline
