import XmlOutline.Proofs.Positions.Faults

/-!
# Spans are nested and ordered like the tree

The span of an element encloses the spans of its attributes and of its children, and these
stand in it one behind the other, attributes first (`Node.Ordered`).  Going through such a
tree, every node starts behind the one before (`Node.starts_preorderList`).

That a tree that was read is like this is seen along its derivation.  The tokens stand in
turn, and none of them is empty (`Token.InTurn`), and the nodes that are read from them do
so too.  A node may be empty, and so `Span.InTurn` does not chain the end of a span to the
start of the next one: between them lies an offset that is behind the start of the first
and not before its end.  For an empty comment that offset is in the marker that ends it.

Main statement: `Document.ordered_of_parse`.
-/

namespace XmlOutline

variable {source : Text} {options : ParseOptions} {tokens rest : List Token} {token : Token}
  {node : Node} {nodes nodes' : List Node} {here middle stop : Nat}

/-! ## Spans in turn -/

namespace Span

variable {span first last : Span} {spans spans' : List Span}

/-- The span lies strictly inside the outer one. -/
structure Inside (span outer : Span) : Prop where
  start_lt : outer.start < span.start
  stop_lt : span.stop < outer.stop

/-- The spans have no byte in common, and the first one starts first. -/
structure Precedes (first second : Span) : Prop where
  stop_le : first.stop ≤ second.start
  start_lt : first.start < second.start

/-- From the one offset to the other there are these spans in turn, and possibly gaps. -/
inductive InTurn : Nat → List Span → Nat → Prop where
  | nil {here stop : Nat} (hle : here ≤ stop) : InTurn here [] stop
  | cons {span : Span} {rest : List Span} {here middle stop : Nat}
      (hstart : here ≤ span.start) (hlt : span.start < middle) (hle : span.stop ≤ middle)
      (hrest : InTurn middle rest stop) : InTurn here (span :: rest) stop

theorem start_le_stop (span : Span) : span.start ≤ span.stop := Nat.le_add_right _ _

theorem InTurn.le (h : InTurn here spans stop) : here ≤ stop := by
  induction h with
  | nil hle => exact hle
  | cons => omega

theorem InTurn.mono (h : InTurn here spans middle) (hle : middle ≤ stop) :
    InTurn here spans stop := by
  induction h with
  | nil hle' => exact .nil (Nat.le_trans hle' hle)
  | cons hstart hlt hle' _ ih => exact .cons hstart hlt hle' (ih hle)

theorem InTurn.append (hfirst : InTurn here spans middle) (hsecond : InTurn middle spans' stop) :
    InTurn here (spans ++ spans') stop := by
  induction hfirst with
  | nil hle =>
      cases hsecond with
      | nil hle' => exact .nil (Nat.le_trans hle hle')
      | cons hstart hlt hle' hrest => exact .cons (Nat.le_trans hle hstart) hlt hle' hrest
  | cons hstart hlt hle _ ih => exact .cons hstart hlt hle (ih hsecond)

/-- Spans in turn lie between the two offsets. -/
theorem InTurn.bounds (h : InTurn here spans stop) :
    ∀ span ∈ spans, here ≤ span.start ∧ span.start < stop ∧ span.stop ≤ stop := by
  induction h with
  | nil => simp
  | cons hstart hlt hle hrest ih =>
      have hbehind := hrest.le
      intro other hother
      rcases List.mem_cons.mp hother with rfl | hother
      · omega
      · have := ih other hother
        omega

theorem InTurn.pairwise (h : InTurn here spans stop) : spans.Pairwise Precedes := by
  induction h with
  | nil => exact .nil
  | cons _ hlt hle hrest ih =>
      refine List.pairwise_cons.mpr ⟨fun other hother => ?_, ih⟩
      obtain ⟨hbehind, _⟩ := hrest.bounds other hother
      exact ⟨Nat.le_trans hle hbehind, by omega⟩

/-- Of two slices, the one that starts first has the earlier position. -/
theorem IsSliceOf.position_precedes (hfirst : first.IsSliceOf source)
    (hlast : last.IsSliceOf source) (hlt : first.start < last.start) :
    (first.position source).Precedes (last.position source) := by
  obtain ⟨before, after, hsource, hsize, _⟩ := Text.slice?_eq_some_iff.mp hfirst
  obtain ⟨before', after', hsource', hsize', _⟩ := Text.slice?_eq_some_iff.mp hlast
  rw [List.append_assoc] at hsource hsource'
  obtain ⟨between, hbetween⟩ :=
    Text.exists_eq_append_of_size_le (hsource.symm.trans hsource') (by omega)
  have hne : between ≠ [] := by
    rintro rfl
    rw [List.append_nil] at hbetween
    rw [hbetween] at hsize'
    omega
  have hposition : first.position source = Position.first.after before := by
    rw [position, ← hsize, hsource, Position.ofOffset_size]
  have hposition' : last.position source = (Position.first.after before).after between := by
    rw [position, ← hsize', hsource', Position.ofOffset_size, hbetween, Position.after_append]
  rw [hposition, hposition']
  exact Position.precedes_after _ hne

end Span

/-! ## Ordered trees -/

namespace Node

/-- The attributes and the children of an element lie inside its span, one behind the
other, the attributes before the children. -/
structure ElementOrdered (span : Span) (attributes : List Attribute) (children : List Node) :
    Prop where
  attribute_inside : ∀ attr ∈ attributes, attr.span.Inside span
  child_inside : ∀ child ∈ children, child.span.Inside span
  attributes_inOrder : attributes.Pairwise fun first second => first.span.Precedes second.span
  attribute_before_child : ∀ attr ∈ attributes, ∀ child ∈ children,
    attr.span.stop < child.span.start
  children_inOrder : children.Pairwise fun first second => first.span.Precedes second.span

/-- If the node is an element, it is ordered. -/
def Ordered : Node → Prop
  | element span _ attributes children => ElementOrdered span attributes children
  | _ => True

theorem mem_preorderList {entry : Nat × Node} {depth : Nat} :
    entry ∈ preorderList depth nodes ↔ ∃ node ∈ nodes, entry ∈ preorder depth node := by
  induction nodes with
  | nil => simp [preorderList]
  | cons node nodes ih => simp [preorderList, ih]

mutual

/-- In an ordered tree every node starts behind the one before, and all nodes below the
first one start inside it. -/
theorem starts_preorder (node : Node) (depth : Nat) (h : node.All Ordered) :
    (preorder depth node).Pairwise (fun first second =>
        first.2.span.start < second.2.span.start) ∧
      ∀ entry ∈ preorder depth node, entry.2 = node ∨
        node.span.start < entry.2.span.start ∧ entry.2.span.start < node.span.stop :=
  match node with
  | element span name attributes children => by
      obtain ⟨hordered, hall⟩ := h
      obtain ⟨hstarts, hinside⟩ :=
        starts_preorderList children (depth + 1) hall hordered.children_inOrder
      have hbelow : ∀ entry ∈ preorderList (depth + 1) children,
          span.start < entry.2.span.start ∧ entry.2.span.start < span.stop := by
        intro entry hentry
        obtain ⟨child, hchild, hmem⟩ := mem_preorderList.mp hentry
        obtain ⟨hstart, hstop⟩ := hordered.child_inside child hchild
        have hle := child.span.start_le_stop
        rcases hinside child hchild entry hmem with hself | hinner
        · rw [hself]
          omega
        · omega
      refine ⟨List.pairwise_cons.mpr ⟨fun entry hentry => (hbelow entry hentry).1, hstarts⟩, ?_⟩
      intro entry hentry
      rcases List.mem_cons.mp hentry with rfl | hentry
      · exact .inl rfl
      · exact .inr (hbelow entry hentry)
  | text _ _ | cdata _ _ | comment _ | instruction _ _ _ | unsupported _ _ =>
      ⟨List.pairwise_singleton _ _, fun _ hentry =>
        .inl (congrArg Prod.snd (List.mem_singleton.mp hentry))⟩

theorem starts_preorderList (nodes : List Node) (depth : Nat) (h : AllList Ordered nodes)
    (hpairs : nodes.Pairwise fun first second => first.span.Precedes second.span) :
    (preorderList depth nodes).Pairwise (fun first second =>
        first.2.span.start < second.2.span.start) ∧
      ∀ node ∈ nodes, ∀ entry ∈ preorder depth node, entry.2 = node ∨
        node.span.start < entry.2.span.start ∧ entry.2.span.start < node.span.stop :=
  match nodes with
  | [] => ⟨.nil, by simp⟩
  | node :: rest => by
      obtain ⟨hnode, hrest⟩ := h
      obtain ⟨hbefore, hpairs⟩ := List.pairwise_cons.mp hpairs
      obtain ⟨hstarts, hinside⟩ := starts_preorder node depth hnode
      obtain ⟨hstarts', hinside'⟩ := starts_preorderList rest depth hrest hpairs
      refine ⟨List.pairwise_append.mpr ⟨hstarts, hstarts', ?_⟩,
        List.forall_mem_cons.mpr ⟨hinside, hinside'⟩⟩
      intro first hfirst second hsecond
      obtain ⟨sibling, hsibling, hmem⟩ := mem_preorderList.mp hsecond
      obtain ⟨hstop, hstart⟩ := hbefore sibling hsibling
      have hlow : first.2.span.start < sibling.span.start := by
        rcases hinside first hfirst with hself | hinner
        · rwa [hself]
        · omega
      rcases hinside' sibling hsibling second hmem with hself | hinner
      · rwa [hself]
      · omega

end

/-- From the one offset to the other there are these siblings in turn, and the trees below
them are ordered. -/
structure Laid (here : Nat) (nodes : List Node) (stop : Nat) : Prop where
  inTurn : Span.InTurn here (nodes.map span) stop
  ordered : AllList Ordered nodes

theorem Laid.nil (hle : here ≤ stop) : Laid here [] stop := ⟨.nil hle, trivial⟩

theorem Laid.mono (h : Laid here nodes middle) (hle : middle ≤ stop) : Laid here nodes stop :=
  ⟨h.inTurn.mono hle, h.ordered⟩

theorem Laid.append (hfirst : Laid here nodes middle) (hsecond : Laid middle nodes' stop) :
    Laid here (nodes ++ nodes') stop where
  inTurn := by
    rw [List.map_append]
    exact hfirst.inTurn.append hsecond.inTurn
  ordered := allList_append.mpr ⟨hfirst.ordered, hsecond.ordered⟩

theorem Laid.pairwise (h : Laid here nodes stop) :
    nodes.Pairwise fun first second => first.span.Precedes second.span :=
  List.pairwise_map.mp h.inTurn.pairwise

theorem span_mem_spans (node : Node) : node.span ∈ node.spans := by
  cases node <;> exact List.mem_cons_self

end Node

/-! ## Tokens in turn -/

namespace Token

/-- From the one offset to the other there are these tokens in turn, and possibly gaps. -/
inductive InTurn (source : Text) : Nat → List Token → Nat → Prop where
  | nil {here stop : Nat} (hle : here ≤ stop) : InTurn source here [] stop
  | cons {token : Token} {rest : List Token} {here stop : Nat}
      (hslice : token.span.IsSliceOf source) (hspelled : token.Spelled)
      (hstart : here ≤ token.span.start) (hne : token.span.start < token.span.stop)
      (hrest : InTurn source token.span.stop rest stop) : InTurn source here (token :: rest) stop

theorem InTurn.le (h : InTurn source here tokens stop) : here ≤ stop := by
  induction h with
  | nil hle => exact hle
  | cons => omega

/-- A row of tokens can be cut anywhere. -/
theorem InTurn.split {later : List Token} (h : InTurn source here (tokens ++ later) stop) :
    ∃ middle, InTurn source here tokens middle ∧ InTurn source middle later stop := by
  induction tokens generalizing here with
  | nil => exact ⟨here, .nil (Nat.le_refl _), h⟩
  | cons token tokens ih =>
      cases h with
      | cons hslice hspelled hstart hne hrest =>
          obtain ⟨middle, hfirst, hsecond⟩ := ih hrest
          exact ⟨middle, .cons hslice hspelled hstart hne hfirst, hsecond⟩

theorem InTurn.split_cons (h : InTurn source here (token :: rest) stop) :
    ∃ middle, InTurn source here [token] middle ∧ InTurn source middle rest stop := by
  rw [← List.singleton_append] at h
  exact h.split

theorem InTurn.spans (h : InTurn source here tokens stop) :
    Span.InTurn here (tokens.map span) stop := by
  induction h with
  | nil hle => exact .nil hle
  | cons _ _ hstart hne _ ih => exact .cons hstart hne (Nat.le_refl _) ih

/-- The node of a single token lies where the token does.  A comment starts inside its
token, and before the end of it even if it is empty. -/
theorem InTurn.laid_leaf (h : InTurn source here [token] stop)
    (hleaf : token.leaf? = some node) : Node.Laid here [node] stop := by
  have hspan : here ≤ node.span.start ∧ node.span.start < stop ∧ node.span.stop ≤ stop := by
    cases h with
    | cons _ hspelled hstart hne hrest =>
        have hstop := hrest.le
        cases hspelled with
        | @comment start content =>
            obtain rfl := Option.some.inj hleaf
            have hsize : start + (4 + content.size + 3) ≤ stop := by
              have htext : Text.size ("<!--".toList ++ content ++ "-->".toList) =
                  4 + content.size + 3 := by
                rw [Text.size_append, Text.size_append]
                rfl
              rw [← htext]
              exact hstop
            have hcontent : (⟨content, start + 4⟩ : Span).stop = start + 4 + content.size := rfl
            have hhere : here ≤ start := hstart
            simp only [Node.span, hcontent]
            omega
        | text | cdata | instruction | doctype =>
            obtain rfl := Option.some.inj hleaf
            exact ⟨hstart, Nat.lt_of_lt_of_le hne hstop, hstop⟩
        | _ => cases hleaf
  have hordered : node.All Node.Ordered := by
    cases token with
    | text | cdata | comment | instruction | doctype =>
        obtain rfl := Option.some.inj hleaf
        trivial
    | _ => cases hleaf
  obtain ⟨hstart, hlt, hle⟩ := hspan
  exact ⟨.cons hstart hlt hle (.nil (Nat.le_refl _)), hordered, trivial⟩

/-- The span that is put together from the first and the last of some tokens reaches from
the one to the other. -/
theorem InTurn.through {first last : Token} {inner : List Token}
    (h : InTurn source here (first :: (inner ++ [last])) stop) :
    Span.InTurn here [Span.through source first.span last.span] stop ∧
      (Span.through source first.span last.span).stop = last.span.stop := by
  cases h with
  | cons hfirst _ hstart hne hrest =>
      obtain ⟨middle, hinner, hend⟩ := hrest.split
      cases hend with
      | cons hlast _ hstart' hne' hnil =>
          have horder : first.span.stop ≤ last.span.start := Nat.le_trans hinner.le hstart'
          have hend : (Span.through source first.span last.span).stop = last.span.stop :=
            (Span.through_of_le hfirst hlast horder).2
          have hle := hnil.le
          refine ⟨.cons hstart ?_ (hend ▸ hle) (.nil (Nat.le_refl _)), hend⟩
          show first.span.start < stop
          omega

end Token

/-- Tokens that are read one after the other stand in turn. -/
theorem TokenStream.Yields.inTurn {start last : TokenStream} (h : Yields start tokens last)
    (hin : start.cursor.In source) :
    Token.InTurn source start.cursor.offset tokens last.cursor.offset := by
  induction h with
  | nil => exact .nil (Nat.le_refl _)
  | @cons start found next last token tokens hskips hrest hstep _ ih =>
      obtain ⟨hin, hfound⟩ := hskips.in hin
      obtain ⟨hslice, hbefore, hstop, hin⟩ := placed_of_step hin hrest hstep
      have hsize : token.span.size ≠ 0 := fun h =>
        span_ne_nil_of_step hrest hstep (Text.size_eq_zero_iff.mp h)
      have hne : token.span.start < token.span.stop :=
        Nat.lt_add_of_pos_right (Nat.pos_of_ne_zero hsize)
      exact .cons hslice (spelled_of_step hrest hstep).1 (Nat.le_trans hfound hbefore) hne
        (hstop ▸ ih hin)

/-! ## Along a derivation -/

/-- What stands in turn between the first and the last token of an element is ordered in the
span that covers these. -/
theorem Node.ElementOrdered.of_inTurn {span : Span} {attributes : List Attribute}
    {children : List Node} {start behind opened closed : Nat} (hstart : span.start < start)
    (hattributes : Span.InTurn start (attributes.map Attribute.span) behind)
    (hbehind : behind < opened)
    (hchildren : Span.InTurn opened (children.map Node.span) closed)
    (hstop : closed < span.stop) : ElementOrdered span attributes children := by
  have hattr (attr : Attribute) (hattr : attr ∈ attributes) :=
    hattributes.bounds attr.span (List.mem_map_of_mem hattr)
  have hchild (child : Node) (hchild : child ∈ children) :=
    hchildren.bounds child.span (List.mem_map_of_mem hchild)
  have hopened := hchildren.le
  refine ⟨fun attr h => ⟨?_, ?_⟩, fun child h => ⟨?_, ?_⟩, List.pairwise_map.mp
    hattributes.pairwise, fun attr h child h' => ?_, List.pairwise_map.mp hchildren.pairwise⟩
  · have := hattr attr h
    omega
  · have := hattr attr h
    omega
  · have := hchild child h
    have := hattributes.le
    omega
  · have := hchild child h
    omega
  · have := hattr attr h
    have := hchild child h'
    omega

mutual

theorem ElementTokens.laid {tokens : List Token} {node : Node} {here stop : Nat}
    (h : ElementTokens source options tokens node) (hturn : Token.InTurn source here tokens stop) :
    Node.Laid here [node] stop :=
  match h with
  | .empty first name attributes last => by
      obtain ⟨hspan, hstop⟩ := hturn.through
      cases hturn with
      | cons _ _ _ hne hrest =>
          obtain ⟨middle, hattributes, hlast⟩ := hrest.split
          have hspans := hattributes.spans
          rw [List.map_map] at hspans
          cases hlast with
          | cons _ hspelled hstart _ _ =>
              cases hspelled with
              | emptyTagEnd start =>
                  -- there is room for children between the two characters of the end
                  have hwide : (⟨['/', '>'], start⟩ : Span).stop = start + 2 := rfl
                  have hbehind : middle < start + 1 := Nat.lt_succ_of_le hstart
                  have hchildren : Span.InTurn (start + 1) (List.map Node.span []) (start + 1) :=
                    .nil (Nat.le_refl _)
                  have hordered : Node.ElementOrdered
                      (.through source first ⟨['/', '>'], start⟩) attributes [] :=
                    .of_inTurn hne hspans hbehind hchildren
                      (Nat.lt_of_lt_of_eq (Nat.lt_succ_self _) (hstop.trans hwide).symm)
                  exact ⟨hspan, ⟨hordered, trivial⟩, trivial⟩
  | @ElementTokens.closed _ _ first name attributes tagEnd content children last closing
      hname hcontent => by
      have hwhole : Token.InTurn source here (.tagStart first name ::
          ((attributes.map .tagAttribute ++ .tagEnd tagEnd :: content) ++
            [.closeTag last closing])) stop := by simpa using hturn
      obtain ⟨hspan, hstop⟩ := hwhole.through
      cases hturn with
      | cons _ _ _ hne hrest =>
          obtain ⟨behind, hattributes, hrest⟩ := hrest.split
          have hspans := hattributes.spans
          rw [List.map_map] at hspans
          cases hrest with
          | cons _ _ hstart hne' hrest =>
              obtain ⟨closed, hinner, hlast⟩ := hrest.split
              have hchildren := hcontent.laid hinner
              cases hlast with
              | cons _ _ hstart' hne'' _ =>
                  have hordered : Node.ElementOrdered (.through source first last) attributes
                      children :=
                    .of_inTurn hne hspans (Nat.lt_of_le_of_lt hstart hne') hchildren.inTurn
                      (hstop ▸ Nat.lt_of_le_of_lt hstart' hne'')
                  exact ⟨hspan, ⟨hordered, hchildren.ordered⟩, trivial⟩

theorem ContentTokens.laid {tokens : List Token} {nodes : List Node} {here stop : Nat}
    (h : ContentTokens source options tokens nodes)
    (hturn : Token.InTurn source here tokens stop) : Node.Laid here nodes stop :=
  match h with
  | .nil => .nil hturn.le
  | .element helement hrest => by
      obtain ⟨middle, hfirst, hsecond⟩ := hturn.split
      exact (helement.laid hfirst).append (hrest.laid hsecond)
  | .text _ hrest | .cdata _ _ hrest | .comment _ _ hrest | .instruction _ _ _ hrest => by
      obtain ⟨middle, hfirst, hsecond⟩ := hturn.split_cons
      exact (hfirst.laid_leaf rfl).append (hrest.laid hsecond)
  | .blank _ hrest => by
      obtain ⟨middle, hfirst, hsecond⟩ := hturn.split_cons
      exact (Node.Laid.nil hfirst.le).append (hrest.laid hsecond)

end

theorem PrologTokens.laid (h : PrologTokens source tokens nodes)
    (hturn : Token.InTurn source here tokens stop) : Node.Laid here nodes stop := by
  induction h generalizing stop with
  | nil => exact .nil hturn.le
  | declaration => exact .nil hturn.le
  | comment _ _ _ ih | instruction _ _ _ _ ih | doctype _ _ ih =>
      obtain ⟨middle, hbefore, hlast⟩ := hturn.split
      exact (ih hbefore).append (hlast.laid_leaf rfl)
  | subset _ _ _ _ ih =>
      obtain ⟨middle, hbefore, hlast⟩ := hturn.split
      exact (ih hbefore).append ⟨hlast.through.1, trivial, trivial⟩
  | blank _ _ ih =>
      obtain ⟨middle, hbefore, hlast⟩ := hturn.split
      exact (ih hbefore).mono hlast.le

theorem EpilogTokens.laid (h : EpilogTokens tokens nodes)
    (hturn : Token.InTurn source here tokens stop) : Node.Laid here nodes stop := by
  induction h generalizing stop with
  | nil => exact .nil hturn.le
  | comment _ _ _ ih | instruction _ _ _ _ ih =>
      obtain ⟨middle, hbefore, hlast⟩ := hturn.split
      exact (ih hbefore).append (hlast.laid_leaf rfl)
  | blank _ _ ih =>
      obtain ⟨middle, hbefore, hlast⟩ := hturn.split
      exact (ih hbefore).mono hlast.le

theorem DocumentTokens.laid (h : DocumentTokens source options tokens nodes)
    (hturn : Token.InTurn source here tokens stop) : Node.Laid here nodes stop := by
  cases h with
  | intro hprolog hroot hepilog =>
      obtain ⟨_, hfront, hafter⟩ := hturn.split
      obtain ⟨_, hbefore, hmiddle⟩ := hfront.split
      exact ((hprolog.laid hbefore).append (hroot.laid hmiddle)).append (hepilog.laid hafter)

/-- In a tree that was read, the attributes and the children of every element lie inside its
span, one behind the other, and the nodes at the top level stand one behind the other.  Every
node starts behind those that come before it in the document, and at a later position. -/
theorem Document.ordered_of_parse {document : Document}
    (h : Document.parse source options = .ok document) :
    (∀ entry ∈ Node.preorderList 0 document.children, entry.2.Ordered) ∧
      (document.children.Pairwise fun first second => first.span.Precedes second.span) ∧
      (Node.preorderList 0 document.children).Pairwise fun first second =>
        first.2.span.start < second.2.span.start ∧
          (first.2.span.position source).Precedes (second.2.span.position source) := by
  obtain ⟨tokens, htokens, _, hdocument⟩ := documentTokens_of_parse h
  obtain ⟨_, _, hyields, _⟩ := TokenStream.tokens_eq_iff.mp htokens
  have hlaid := hdocument.laid (hyields.inTurn (TokenStream.ofSource_in source))
  refine ⟨(Node.allList_iff _ 0).mp hlaid.ordered, hlaid.pairwise, ?_⟩
  obtain ⟨hplaced, hspelled⟩ := Token.placed_of_ofSource htokens
  have hslices := (Node.allList_iff document.children 0).mp
    (hdocument.all (Token.vouch_inSource hplaced hspelled))
  have hstarts := (Node.starts_preorderList document.children 0 hlaid.ordered hlaid.pairwise).1
  refine hstarts.imp_of_mem fun {first second} hfirst hsecond hlt => ⟨hlt, ?_⟩
  exact (hslices first hfirst _ first.2.span_mem_spans).position_precedes
    (hslices second hsecond _ second.2.span_mem_spans) hlt

/-- A document with attributes, an empty comment and an empty element, and with letters of
two bytes in two rows. -/
theorem Document.ordered_of_parse_rows :
    ∃ (source : Text) (document : Document),
      source = "<!--é--><ä k='1' l=''>\n<b m='ü'><!----></b>ö<c/></ä>\n<?p?>".toList ∧
      Document.parse source ⟨true⟩ = .ok document ∧
      (∀ entry ∈ Node.preorderList 0 document.children, entry.2.Ordered) ∧
      (document.children.Pairwise fun first second => first.span.Precedes second.span) ∧
      (Node.preorderList 0 document.children).Pairwise fun first second =>
        first.2.span.start < second.2.span.start ∧
          (first.2.span.position source).Precedes (second.2.span.position source) := by
  obtain ⟨source, hsource⟩ : ∃ source : Text, source =
      "<!--é--><ä k='1' l=''>\n<b m='ü'><!----></b>ö<c/></ä>\n<?p?>".toList := ⟨_, rfl⟩
  have hreads : (Document.parse source ⟨true⟩).isOk = true := by
    rw [hsource]
    decide +kernel
  obtain ⟨document, h⟩ := exists_eq_ok_of_isOk hreads
  exact ⟨source, document, hsource, h, Document.ordered_of_parse h⟩

end XmlOutline
