import XmlOutline.Proofs.Derivation.Soundness
import XmlOutline.Proofs.Outline.Documents

/-!
# The top level of documents

A document that was read has one element at the top level, its root.  Before the root
there are comments, instructions and at most one document type declaration; behind it,
comments and instructions (`Document.HasOneRoot`).  Inside an element every node has a
layout.

The rules of the grammar settle all of this but one thing: they allow any number of
document type declarations, as the builder does.  That there is at most one comes from
the token stream, whose regions lead past the place of the declaration and never back
(`TokenStream.Yields.countP_opensDoctype_le`).

Main statement: `Document.exists_hasOneRoot_of_parse`.
-/

namespace XmlOutline

/-! ## One document type declaration -/

/-- The token begins a document type declaration. -/
def Token.opensDoctype : Token → Bool
  | doctype _ => true
  | subsetOpen _ => true
  | _ => false

/-- A document type declaration may still come. -/
def Region.isBeforeDoctype : Region → Bool
  | start => true
  | beforeDoctype => true
  | _ => false

namespace TokenStream

variable {start stop : TokenStream} {region : Region} {token : Token} {tokens : List Token}

/-- No region leads back to before the declaration. -/
theorem isBeforeDoctype_following (depth : Nat) (token? : Option Token)
    (hpast : region.isBeforeDoctype = false) :
    (following region depth token?).1.isBeforeDoctype = false := by
  have hstart : region ≠ .start := by
    rintro rfl
    cases hpast
  unfold following
  split
  · rfl
  · rfl
  · rfl
  · rfl
  · rfl
  · split <;> rfl
  · split <;> rfl
  · rw [if_neg hstart]
    exact hpast

/-- A declaration leads past the place where it may stand. -/
theorem isBeforeDoctype_of_opensDoctype (region : Region) (depth : Nat)
    (htoken : token.opensDoctype = true) :
    (following region depth (some token)).1.isBeforeDoctype = false := by
  cases token with
  | doctype | subsetOpen => rfl
  | _ => cases htoken

theorem mayStandIn_of_opensDoctype (htoken : token.opensDoctype = true)
    (hmay : token.mayStandIn region = true) : region.isBeforeDoctype = true := by
  cases token with
  | doctype | subsetOpen =>
      cases region with
      | start | beforeDoctype => rfl
      | _ => cases hmay
  | _ => cases htoken

theorem Skips.isBeforeDoctype (h : Skips start stop)
    (hpast : start.region.isBeforeDoctype = false) : stop.region.isBeforeDoctype = false := by
  induction h with
  | refl => exact hpast
  | @step start _ _ _ hstep _ ih =>
      obtain ⟨_, _, _, hfollowing⟩ := step_eq_ok_iff.mp hstep
      have hnext := isBeforeDoctype_following start.depth none hpast
      rw [hfollowing] at hnext
      exact ih hnext

/-- Behind a declaration there comes no other. -/
theorem Yields.not_opensDoctype (h : Yields start tokens stop)
    (hpast : start.region.isBeforeDoctype = false) :
    ∀ token ∈ tokens, ¬token.opensDoctype = true := by
  induction h with
  | nil => simp
  | @cons start found next stop token tokens hskips hrest hstep _ ih =>
      have hfound := hskips.isBeforeDoctype hpast
      obtain ⟨_, hmay, _⟩ := spelled_of_step hrest hstep
      obtain ⟨_, _, _, hfollowing⟩ := step_eq_ok_iff.mp hstep
      have hnext := isBeforeDoctype_following found.depth (some token) hfound
      rw [hfollowing] at hnext
      intro other hother htoken
      rcases List.mem_cons.mp hother with rfl | hother
      · have hbefore := mayStandIn_of_opensDoctype htoken hmay
        rw [hfound] at hbefore
        exact Bool.false_ne_true hbefore
      · exact ih hnext other hother htoken

/-- In a text there is at most one document type declaration. -/
theorem Yields.countP_opensDoctype_le (h : Yields start tokens stop) :
    tokens.countP Token.opensDoctype ≤ 1 := by
  induction h with
  | nil => simp
  | @cons start found next stop token tokens _ _ hstep hyields ih =>
      cases htoken : token.opensDoctype with
      | false =>
          rw [List.countP_cons_of_neg (by simp [htoken])]
          exact ih
      | true =>
          obtain ⟨_, _, _, hfollowing⟩ := step_eq_ok_iff.mp hstep
          have hnext : next.region.isBeforeDoctype = false := by
            have hpast := isBeforeDoctype_of_opensDoctype found.region found.depth htoken
            rw [hfollowing] at hpast
            exact hpast
          have hlater : tokens.countP Token.opensDoctype = 0 :=
            List.countP_eq_zero.mpr (hyields.not_opensDoctype hnext)
          rw [List.countP_cons_of_pos htoken]
          omega

end TokenStream

/-! ## The nodes of a derivation -/

namespace Node

/-- The node is a comment or an instruction. -/
def isMisc : Node → Bool
  | comment _ => true
  | instruction _ _ _ => true
  | _ => false

/-- The node is a document type declaration. -/
def isDoctype : Node → Bool
  | unsupported _ .documentType => true
  | _ => false

/-- The node may stand beside the root element. -/
def IsBeside (node : Node) : Prop := node.isMisc = true ∨ node.isDoctype = true

variable {node : Node} {nodes nodes' : List Node}

theorem IsBeside.name?_eq_none (h : node.IsBeside) : node.name? = none := by
  cases node with
  | element => rcases h with h | h <;> cases h
  | _ => rfl

/-- Of what stands beside the root, only the declaration is unsupported. -/
theorem IsBeside.isSome_unsupported? (h : node.IsBeside) :
    node.unsupported?.isSome = node.isDoctype := by
  cases node with
  | unsupported span kind =>
      cases kind with
      | documentType => rfl
      | fragment => rcases h with h | h <;> cases h
  | _ => rfl

theorem preorderList_append (depth : Nat) :
    preorderList depth (nodes ++ nodes') =
      preorderList depth nodes ++ preorderList depth nodes' := by
  induction nodes with
  | nil => rfl
  | cons node nodes ih =>
      rw [List.cons_append, preorderList, preorderList, ih, List.append_assoc]

/-- Where no node is an element, there is nothing below. -/
theorem preorderList_eq_map (depth : Nat) (h : ∀ node ∈ nodes, node.name? = none) :
    preorderList depth nodes = nodes.map fun node => (depth, node) := by
  induction nodes with
  | nil => rfl
  | cons node nodes ih =>
      obtain ⟨hnode, hnodes⟩ := List.forall_mem_cons.mp h
      rw [preorderList, ih hnodes]
      cases node with
      | element => cases hnode
      | _ => rfl

end Node

variable {source : Text} {options : ParseOptions} {tokens : List Token} {nodes : List Node}

private theorem forall_mem_snoc {property : Node → Prop} {node : Node}
    (hnodes : ∀ other ∈ nodes, property other) (hnode : property node) :
    ∀ other ∈ nodes ++ [node], property other :=
  List.forall_mem_append.mpr ⟨hnodes, List.forall_mem_singleton.mpr hnode⟩

theorem PrologTokens.beside (h : PrologTokens source tokens nodes) :
    ∀ node ∈ nodes, node.IsBeside := by
  induction h with
  | nil | declaration => simp
  | comment _ _ _ ih => exact forall_mem_snoc ih (Or.inl rfl)
  | instruction _ _ _ _ ih => exact forall_mem_snoc ih (Or.inl rfl)
  | doctype _ _ ih => exact forall_mem_snoc ih (Or.inr rfl)
  | subset _ _ _ _ ih => exact forall_mem_snoc ih (Or.inr rfl)
  | blank _ _ ih => exact ih

/-- Before the root there are as many declarations as there are tokens that begin one. -/
theorem PrologTokens.countP_isDoctype (h : PrologTokens source tokens nodes) :
    nodes.countP Node.isDoctype = tokens.countP Token.opensDoctype := by
  induction h with
  | nil => rfl
  | declaration _ _ ih | blank _ _ ih =>
      rw [List.countP_append, ← ih]
      rfl
  | comment _ _ _ ih | instruction _ _ _ _ ih | doctype _ _ ih =>
      rw [List.countP_append, List.countP_append, ih]
      rfl
  | @subset before inner nodes first last _ hinner ih =>
      have hnone : inner.countP Token.opensDoctype = 0 := by
        refine List.countP_eq_zero.mpr fun token htoken => ?_
        have hignored := hinner token htoken
        cases token with
        | doctype | subsetOpen => cases hignored
        | _ => exact Bool.false_ne_true
      have hwhole : (.subsetOpen first :: (inner ++ [.subsetClose last])).countP
          Token.opensDoctype = 1 := by
        rw [List.countP_cons_of_pos rfl, List.countP_append, hnone]
        rfl
      rw [List.countP_append, List.countP_append, ih, hwhole]
      rfl

theorem EpilogTokens.misc (h : EpilogTokens tokens nodes) :
    ∀ node ∈ nodes, node.isMisc = true := by
  induction h with
  | nil => simp
  | comment _ _ _ ih => exact forall_mem_snoc ih rfl
  | instruction _ _ _ _ ih => exact forall_mem_snoc ih rfl
  | blank _ _ ih => exact ih

mutual

/-- From an element down there is no unsupported node. -/
theorem ElementTokens.supported {tokens : List Token} {node : Node}
    (h : ElementTokens source options tokens node) :
    node.All fun node => node.unsupported? = none :=
  match h with
  | .empty _ _ _ _ => ⟨rfl, trivial⟩
  | .closed _ _ _ _ _ _ hcontent => ⟨rfl, hcontent.supported⟩

theorem ContentTokens.supported {tokens : List Token} {nodes : List Node}
    (h : ContentTokens source options tokens nodes) :
    Node.AllList (fun node => node.unsupported? = none) nodes :=
  match h with
  | .nil => trivial
  | .element helement hrest => ⟨helement.supported, hrest.supported⟩
  | .text _ hrest | .cdata _ _ hrest | .comment _ _ hrest | .instruction _ _ _ hrest =>
      ⟨rfl, hrest.supported⟩
  | .blank _ hrest => hrest.supported

end

/-! ## Documents -/

/-- The top level of the document is these nodes, its root element and those nodes. -/
structure Document.HasOneRoot (document : Document) (before : List Node) (root : Node)
    (later : List Node) : Prop where
  children_eq : document.children = before ++ root :: later
  root?_eq : document.root? = some root
  /-- No other node at the top level is an element. -/
  elements_eq : document.children.filter (·.name?.isSome) = [root]
  no_text : ∀ span content,
    .text span content ∉ document.children ∧ .cdata span content ∉ document.children
  before_root : ∀ node ∈ before, node.IsBeside
  behind_root : ∀ node ∈ later, node.isMisc = true
  /-- The only unsupported node there can be, at any depth, is a document type
  declaration before the root. -/
  unsupported_mem : ∀ depth span kind,
    (depth, .unsupported span kind) ∈ Node.preorderList 0 document.children →
      depth = 0 ∧ kind = .documentType ∧ .unsupported span kind ∈ before
  at_most_one : (Node.preorderList 0 document.children).countP
    (fun entry => entry.2.unsupported?.isSome) ≤ 1

namespace Document

variable {document : Document} {before later : List Node} {root : Node}

theorem root?_eq_of_beside (hchildren : document.children = before ++ root :: later)
    (helement : root.name?.isSome = true) (hbefore : ∀ node ∈ before, node.name? = none) :
    document.root? = some root := by
  have hnone : before.find? (·.name?.isSome) = none :=
    List.find?_eq_none.mpr fun node hnode => by simp [hbefore node hnode]
  have hfirst : (root :: later).find? (·.name?.isSome) = some root :=
    List.find?_cons_of_pos helement
  rw [root?, hchildren, List.find?_append, hnone, hfirst]
  rfl

theorem elements_eq_of_beside (hchildren : document.children = before ++ root :: later)
    (helement : root.name?.isSome = true) (hbefore : ∀ node ∈ before, node.name? = none)
    (hlater : ∀ node ∈ later, node.name? = none) :
    document.children.filter (·.name?.isSome) = [root] := by
  have hnone {nodes : List Node} (hnodes : ∀ node ∈ nodes, node.name? = none) :
      nodes.filter (·.name?.isSome) = [] :=
    List.filter_eq_nil_iff.mpr fun node hnode => by simp [hnodes node hnode]
  have hfirst : (root :: later).filter (·.name?.isSome) =
      root :: later.filter (·.name?.isSome) := List.filter_cons_of_pos helement
  rw [hchildren, List.filter_append, hfirst, hnone hbefore, hnone hlater]
  rfl

theorem no_text_of_beside (hchildren : document.children = before ++ root :: later)
    (helement : root.name?.isSome = true) (hbefore : ∀ node ∈ before, node.IsBeside)
    (hlater : ∀ node ∈ later, node.isMisc = true) (span content : Span) :
    .text span content ∉ document.children ∧ .cdata span content ∉ document.children := by
  have hall : ∀ node ∈ document.children, node.IsBeside ∨ node.name?.isSome = true := by
    rw [hchildren]
    refine List.forall_mem_append.mpr ⟨fun node hnode => Or.inl (hbefore node hnode),
      List.forall_mem_cons.mpr ⟨Or.inr helement, fun node hnode => ?_⟩⟩
    exact Or.inl (Or.inl (hlater node hnode))
  constructor
  · intro hmem
    rcases hall _ hmem with (h | h) | h <;> cases h
  · intro hmem
    rcases hall _ hmem with (h | h) | h <;> cases h

/-- Around a root without unsupported nodes there is only what may stand beside it. -/
theorem hasOneRoot_of_beside (hchildren : document.children = before ++ root :: later)
    (helement : root.name?.isSome = true)
    (hroot : root.All fun node => node.unsupported? = none)
    (hbefore : ∀ node ∈ before, node.IsBeside) (hlater : ∀ node ∈ later, node.isMisc = true)
    (hdoctypes : before.countP Node.isDoctype ≤ 1) : document.HasOneRoot before root later := by
  have hfront : ∀ node ∈ before, node.name? = none :=
    fun node hnode => (hbefore node hnode).name?_eq_none
  have hback : ∀ node ∈ later, node.name? = none :=
    fun node hnode => Node.IsBeside.name?_eq_none (Or.inl (hlater node hnode))
  have hinside := (Node.all_iff root 0).mp hroot
  have hpreorder : Node.preorderList 0 document.children =
      before.map (fun node => (0, node)) ++
        (root.preorder 0 ++ later.map fun node => (0, node)) := by
    rw [hchildren, Node.preorderList_append, Node.preorderList_eq_map 0 hfront,
      Node.preorderList, Node.preorderList_eq_map 0 hback]
  have hmisc : ∀ node ∈ later, node.unsupported? = none := by
    intro node hnode
    cases node with
    | unsupported => cases hlater _ hnode
    | _ => rfl
  refine ⟨hchildren, root?_eq_of_beside hchildren helement hfront,
    elements_eq_of_beside hchildren helement hfront hback,
    no_text_of_beside hchildren helement hbefore hlater, hbefore, hlater, ?_, ?_⟩
  · intro depth span kind hmem
    rw [hpreorder] at hmem
    rcases List.mem_append.mp hmem with hmem | hmem
    · obtain ⟨node, hnode, hentry⟩ := List.mem_map.mp hmem
      obtain ⟨rfl, rfl⟩ := Prod.mk.inj hentry
      have hdoctype := (hbefore _ hnode).isSome_unsupported?
      cases kind with
      | documentType => exact ⟨rfl, rfl, hnode⟩
      | fragment => cases hdoctype
    · rcases List.mem_append.mp hmem with hmem | hmem
      · cases hinside _ hmem
      · obtain ⟨node, hnode, hentry⟩ := List.mem_map.mp hmem
        obtain ⟨rfl, rfl⟩ := Prod.mk.inj hentry
        cases hmisc _ hnode
  · have hnone {entries : List (Nat × Node)} (h : ∀ entry ∈ entries, entry.2.unsupported? = none) :
        entries.countP (fun entry => entry.2.unsupported?.isSome) = 0 :=
      List.countP_eq_zero.mpr fun entry hentry => by simp [h entry hentry]
    have hlast : (later.map fun node => (0, node)).countP
        (fun entry : Nat × Node => entry.2.unsupported?.isSome) = 0 :=
      hnone (List.forall_mem_map.mpr hmisc)
    rw [hpreorder, List.countP_append, List.countP_append, hnone hinside, hlast, List.countP_map]
    calc before.countP (fun node => node.unsupported?.isSome)
        = before.countP Node.isDoctype :=
          List.countP_congr fun node hnode => by rw [(hbefore node hnode).isSome_unsupported?]
      _ ≤ 1 := hdoctypes

/-- A document that was read has one root element, with comments, instructions and at
most one document type declaration before it, and comments and instructions behind it.
No other node at any depth is without a layout. -/
theorem exists_hasOneRoot_of_parse {source : Text} {options : ParseOptions}
    (h : Document.parse source options = .ok document) :
    ∃ before root later, document.HasOneRoot before root later := by
  obtain ⟨tokens, htokens, _, hdocument⟩ := documentTokens_of_parse h
  obtain ⟨_, _, hyields, _, _⟩ := TokenStream.tokens_eq_iff.mp htokens
  generalize hchildren : document.children = children at hdocument
  cases hdocument with
  | @intro first middle last before later root hprolog hroot hepilog =>
      have helement : root.name?.isSome = true := by
        cases hroot with
        | empty | closed => rfl
      have hdoctypes : before.countP Node.isDoctype ≤ 1 := by
        calc before.countP Node.isDoctype
            = first.countP Token.opensDoctype := hprolog.countP_isDoctype
          _ ≤ (first ++ middle ++ last).countP Token.opensDoctype :=
              (List.sublist_append_of_sublist_left (List.sublist_append_left _ _)).countP_le
          _ ≤ 1 := hyields.countP_opensDoctype_le
      rw [← List.append_cons] at hchildren
      exact ⟨before, root, later, hasOneRoot_of_beside hchildren helement hroot.supported
        hprolog.beside hepilog.misc hdoctypes⟩

/-- Around the root there are a declaration with a subset, and a comment. -/
theorem exists_hasOneRoot_of_parse_doctype :
    ∃ document, Document.parse "<!DOCTYPE r [<!--c--><?p?>]><r><r/>x</r><!--e-->".toList =
        .ok document ∧
      ∃ before root later, document.HasOneRoot before root later := by
  obtain ⟨document, h⟩ : ∃ document,
      Document.parse "<!DOCTYPE r [<!--c--><?p?>]><r><r/>x</r><!--e-->".toList = .ok document :=
    exists_eq_ok_of_isOk (by decide +kernel)
  exact ⟨document, h, exists_hasOneRoot_of_parse h⟩

end Document

end XmlOutline
