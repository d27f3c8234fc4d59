import XmlOutline.Proofs.RoundTrip.Requotes
import XmlOutline.Proofs.RoundTrip.Steps
import XmlOutline.Proofs.RoundTrip.Written

/-!
# Reading elements again

A node that was written is read again, wherever it stands and whatever comes behind
it (`Node.Rereadable`).  For an element this follows from the same for its children
(`TokenStream.IsAt.yields_element`), so the proof is by recursion on the tree.

Between two children there is a gap of spaces, and a text among the children runs on
from the gap before it to the end of the gap behind it.  That is why texts are read
together with their gaps (`TokenStream.IsAt.rereads_list`), and why no two texts may
follow one another.
-/

namespace XmlOutline

open CharClass

/-! ## Comments and instructions -/

/-- Tokens that are read alike wherever they stand, and the nodes they are read as. -/
inductive AsideTokens : List Token → List Node → Prop where
  | nil : AsideTokens [] []
  | comment (span content : Span) {rest : List Token} {nodes : List Node}
      (hrest : AsideTokens rest nodes) :
      AsideTokens (.comment span content :: rest) (.comment content :: nodes)
  | instruction (span target : Span) (content : Option Span) {rest : List Token}
      {nodes : List Node} (hrest : AsideTokens rest nodes) :
      AsideTokens (.instruction span target content :: rest)
        (.instruction span target content :: nodes)

theorem AsideTokens.content {source : Text} {options : ParseOptions} {tokens : List Token}
    {nodes : List Node} (h : AsideTokens tokens nodes) :
    ContentTokens source options tokens nodes := by
  induction h with
  | nil => exact .nil
  | comment span content _ ih => exact .comment span content ih
  | instruction span target content _ ih => exact .instruction span target content ih

namespace TokenStream

variable {source indent : Text} {stream start middle stop : TokenStream} {region : Region}
  {level depth : Nat} {rest : Text}

theorem IsAt.yields_aside {node : Node}
    (h : stream.IsAt (Layout.written indent level node ++ rest) region depth)
    (haside : node.isAside = true) (hwritable : node.Writable) (hregion : region ≠ .tag) :
    ∃ token node' next, Yields stream [token] next ∧ AsideTokens [token] [node'] ∧
      node.Requotes node' ∧
      next.IsAt rest (if region = .start then .beforeDoctype else region) depth := by
  cases node with
  | comment content =>
      rw [Layout.written] at h
      obtain ⟨_, _, next, hyields, hcontent, hnext⟩ := h.yields_comment hwritable hregion
      exact ⟨_, _, next, hyields, .comment _ _ .nil, .comment hcontent.symm, hnext⟩
  | instruction span target content =>
      obtain ⟨htarget, hxml, hcontent⟩ := hwritable
      rw [Layout.written] at h
      have hdata : ((content.map Span.text).getD []).IsInstructionContent := by
        cases content with
        | none => exact ⟨(fun _ hc => nomatch hc), trivial, rfl⟩
        | some data => exact (hcontent data rfl).1
      obtain ⟨_, _, content', next, hyields, htarget', hcontent', hnext⟩ :=
        h.yields_instruction htarget hxml hdata hregion
      refine ⟨_, _, next, hyields, .instruction _ _ _ .nil, .instruction htarget'.symm ?_, hnext⟩
      rw [hcontent']
      cases content with
      | none => rfl
      | some data => simp [(hcontent data rfl).2]
  | unsupported => exact hwritable.elim
  | _ => cases haside

/-! ## Content of an element -/

/-- From one place to another stands content of an element that is read as these
nodes, but for the quotes around text. -/
def Rereads (source : Text) (start : TokenStream) (nodes : List Node) (stop : TokenStream) :
    Prop :=
  ∃ tokens nodes', Yields start tokens stop ∧ ContentTokens source {} tokens nodes' ∧
    Node.RequotesList nodes nodes'

theorem Rereads.append {nodes nodes' : List Node} (hfirst : Rereads source start nodes middle)
    (hsecond : Rereads source middle nodes' stop) :
    Rereads source start (nodes ++ nodes') stop := by
  obtain ⟨_, _, hyields, hcontent, hrequotes⟩ := hfirst
  obtain ⟨_, _, hyields', hcontent', hrequotes'⟩ := hsecond
  exact ⟨_, _, yields_append_iff.mpr ⟨middle, hyields, hyields'⟩, hcontent.append hcontent',
    hrequotes.append hrequotes'⟩

/-- A gap before markup is a blank run of text, which leaves no node. -/
theorem IsAt.rereads_gap {gap : Text} (h : stream.IsAt (gap ++ rest) .content depth)
    (hgap : gap.IsSpaces) (hne : gap ≠ []) (hbehind : rest.head? = some '<') :
    ∃ next, Rereads source stream [] next ∧ next.IsAt rest .content depth := by
  obtain ⟨run, next, hyields, hrun, hnext⟩ :=
    h.yields_text hgap.isCharacterData hne hbehind
  have hblank : ¬ParseOptions.Keeps {} run := by
    have hall : Text.isBlank run.text = true := by
      rw [hrun]
      exact List.all_eq_true.mpr fun c hc => Text.isBlankChar_of_isSpace (hgap c hc)
    simp [ParseOptions.Keeps, hall]
  exact ⟨next, ⟨_, _, hyields, .blank hblank .nil, .nil⟩, hnext⟩

/-- A text is read with the gap before it and the gap behind it. -/
theorem IsAt.rereads_text {before after : Text} {span content : Span}
    (h : stream.IsAt (before ++ (Layout.written indent level (.text span content) ++
      (after ++ rest))) .content depth)
    (hbefore : before.IsSpaces) (hafter : after.IsSpaces) (hbehind : rest.head? = some '<')
    (hwritable : (Node.text span content).Writable) :
    ∃ next, Rereads source stream [.text span content] next ∧ next.IsAt rest .content depth := by
  have hquoted : content.text.Requotes (before ++ ['"'] ++ content.text ++ ['"'] ++ after) :=
    ⟨before, after, hbefore, hafter, rfl⟩
  have hwritten : before ++ (Layout.written indent level (.text span content) ++
      (after ++ rest)) = before ++ ['"'] ++ content.text ++ ['"'] ++ after ++ rest := by
    simp [Layout.written, Layout.writtenContent]
  rw [hwritten] at h
  obtain ⟨run, next, hyields, hrun, hnext⟩ :=
    h.yields_text (hquoted.isCharacterData hwritable) (by simp) hbehind
  rw [← hrun] at hquoted
  exact ⟨next, ⟨_, _, hyields, .text (Or.inr hquoted.isBlank_eq_false) .nil,
    .cons (.text hquoted) .nil⟩, hnext⟩

end TokenStream

/-- Wherever the node is written in an element, it is read again. -/
def Node.Rereadable (source indent : Text) (node : Node) : Prop :=
  ∀ (stream : TokenStream) (level depth : Nat) (rest : Text),
    stream.IsAt (Layout.written indent level node ++ rest) .content depth → 0 < depth →
      ∃ next, stream.Rereads source [node] next ∧ next.IsAt rest .content depth

namespace Layout

variable {indent : Text}

theorem feed_isSpaces (hindent : indent.IsSpaces) (level : Nat) : (feed indent level).IsSpaces := by
  intro c hc
  rcases List.mem_cons.mp hc with rfl | hc
  · rfl
  obtain ⟨copy, hcopy, hc⟩ := List.mem_flatten.mp hc
  rw [(List.mem_replicate.mp hcopy).2] at hc
  exact hindent c hc

/-- What is not a text is written as markup. -/
theorem head?_written (indent : Text) {node : Node} (hwritable : node.Writable)
    (htext : node.isText = false) (level : Nat) (rest : Text) :
    (written indent level node ++ rest).head? = some '<' := by
  cases node with
  | element span name attributes children =>
      cases children with
      | nil => simp [written, writtenStart]
      | cons child children => simp [written, writtenStart]
  | cdata | comment | instruction => rfl
  | text => cases htext
  | unsupported => exact hwritable.elim

end Layout

namespace TokenStream

variable {source indent gap rest : Text} {level depth : Nat}

/-- What is written for siblings is read again if the siblings that are not text are,
for any gap and any markup behind them. -/
theorem IsAt.rereads_list (hindent : indent.IsSpaces) (hdepth : 0 < depth)
    (hgap : gap.IsSpaces) (hne : gap ≠ []) (hbehind : rest.head? = some '<') (nodes : List Node)
    {stream : TokenStream}
    (h : stream.IsAt (Layout.writtenList indent level nodes ++ (gap ++ rest)) .content depth)
    (hwritable : ∀ node ∈ nodes, node.Writable) (hseparated : Node.Separated nodes)
    (hnodes : ∀ node ∈ nodes, node.isText = false → node.Rereadable source indent) :
    ∃ next, Rereads source stream nodes next ∧ next.IsAt rest .content depth := by
  have hfeed := Layout.feed_isSpaces hindent level
  have hfeedNe : Layout.feed indent level ≠ [] := List.cons_ne_nil _ _
  -- behind the gap before a node that is not text, the node is read and then the others
  have hrest {node : Node} {others : List Node} {start : TokenStream}
      (hlength : others.length < nodes.length) (hmem : node :: others ⊆ nodes)
      (htext : node.isText = false) (hothers : Node.Separated others)
      (hstart : start.IsAt (Layout.written indent level node ++
        (Layout.writtenList indent level others ++ (gap ++ rest))) .content depth) :
      ∃ next, Rereads source start (node :: others) next ∧ next.IsAt rest .content depth := by
    obtain ⟨middle, hfirst, hmiddle⟩ :=
      hnodes node (hmem List.mem_cons_self) htext _ _ _ _ hstart hdepth
    obtain ⟨next, hsecond, hnext⟩ := IsAt.rereads_list hindent hdepth hgap hne hbehind others
      hmiddle (fun other hother => hwritable other (hmem (List.mem_cons_of_mem _ hother)))
      hothers fun other hother => hnodes other (hmem (List.mem_cons_of_mem _ hother))
    exact ⟨next, hfirst.append hsecond, hnext⟩
  cases nodes with
  | nil =>
      rw [Layout.writtenList, List.nil_append] at h
      exact h.rereads_gap hgap hne hbehind
  | cons node others =>
      obtain ⟨htexts, hothers⟩ := Node.separated_cons_iff.mp hseparated
      have hnode := hwritable node List.mem_cons_self
      rw [Layout.writtenList, List.append_assoc, List.append_assoc] at h
      cases htext : node.isText with
      | false =>
          have hmarkup := Layout.head?_written indent hnode htext level
          obtain ⟨middle, hblank, hmiddle⟩ := h.rereads_gap hfeed hfeedNe (hmarkup _)
          obtain ⟨next, hlater, hnext⟩ :=
            hrest (Nat.lt_succ_self _) (List.Subset.refl _) htext hothers hmiddle
          exact ⟨next, hblank.append hlater, hnext⟩
      | true =>
          obtain ⟨span, content, rfl⟩ : ∃ span content, node = .text span content := by
            cases node with
            | text span content => exact ⟨span, content, rfl⟩
            | _ => cases htext
          cases others with
          | nil =>
              rw [Layout.writtenList, List.nil_append] at h
              exact h.rereads_text hfeed hgap hbehind hnode
          | cons second others =>
              have hsecondText : second.isText = false := htexts rfl
              have hsecond := hwritable second (List.mem_cons_of_mem _ List.mem_cons_self)
              rw [Layout.writtenList, List.append_assoc, List.append_assoc] at h
              have hmarkup := Layout.head?_written indent hsecond hsecondText level
              obtain ⟨middle, hfirst, hmiddle⟩ := h.rereads_text hfeed hfeed (hmarkup _) hnode
              -- the gap before the second node goes into the run of text, so the rest
              -- starts with the node itself
              have hlength : others.length < others.length + 1 + 1 := by omega
              obtain ⟨next, hlater, hnext⟩ := hrest hlength (List.subset_cons_self _ _)
                hsecondText (Node.separated_cons_iff.mp hothers).2 hmiddle
              exact ⟨next, hfirst.append hlater, hnext⟩
termination_by nodes.length

/-! ## Elements -/

theorem IsAt.yields_attributes {attributes : List Attribute} {stream : TokenStream}
    (h : stream.IsAt ((attributes.map Layout.writtenAttribute).flatten ++ rest) .tag depth)
    (hattributes : ∀ attr ∈ attributes, attr.name.IsProper ∧
      attr.value.text.IsAttributeValue '"') :
    ∃ (attributes' : List Attribute) (next : TokenStream),
      Yields stream (attributes'.map .tagAttribute) next ∧
      attributes.map Attribute.texts = attributes'.map Attribute.texts ∧
      next.IsAt rest .tag depth := by
  induction attributes generalizing stream with
  | nil => exact ⟨[], stream, .nil stream, rfl, h⟩
  | cons attr attributes ih =>
      obtain ⟨hname, hvalue⟩ := hattributes attr List.mem_cons_self
      rw [List.map_cons, List.flatten_cons, List.append_assoc] at h
      obtain ⟨attr', middle, hyields, hsame, htext, hmiddle⟩ := h.yields_tagAttribute hname hvalue
      obtain ⟨attributes', next, hyields', htexts, hnext⟩ :=
        ih hmiddle fun other hother => hattributes other (List.mem_cons_of_mem _ hother)
      obtain ⟨hqualifier, hlocal⟩ := Name.beq_eq_true_iff.mp hsame
      refine ⟨attr' :: attributes', next, yields_append_iff.mpr ⟨middle, hyields, hyields'⟩, ?_,
        hnext⟩
      rw [List.map_cons, List.map_cons, htexts, Attribute.texts, Attribute.texts, hqualifier,
        hlocal, htext]

/-- A start tag is read up to its end. -/
theorem IsAt.yields_start {name : Name} {attributes : List Attribute} {stream : TokenStream}
    {region : Region}
    (h : stream.IsAt (Layout.writtenStart name attributes ++ rest) region depth)
    (hname : name.IsProper) (hattributes : ∀ attr ∈ attributes, attr.name.IsProper ∧
      attr.value.text.IsAttributeValue '"')
    (hbehind : rest.head?.any isNameChar = false) (hregion : region.allowsElement = true) :
    ∃ (span : Span) (name' : Name) (attributes' : List Attribute) (next : TokenStream),
      Yields stream (.tagStart span name' :: attributes'.map .tagAttribute) next ∧
      (name == name') = true ∧
      attributes.map Attribute.texts = attributes'.map Attribute.texts ∧
      next.IsAt rest .tag depth := by
  have hwritten : Layout.writtenStart name attributes ++ rest =
      '<' :: name.display ++ ((attributes.map Layout.writtenAttribute).flatten ++ rest) := by
    simp [Layout.writtenStart]
  have hend : ((attributes.map Layout.writtenAttribute).flatten ++ rest).head?.any isNameChar =
      false := by
    cases attributes with
    | nil => exact hbehind
    | cons attr attributes => rfl
  rw [hwritten] at h
  obtain ⟨span, name', middle, hyields, hsame, hmiddle⟩ := h.yields_tagStart hname hend hregion
  obtain ⟨attributes', next, hyields', htexts, hnext⟩ := hmiddle.yields_attributes hattributes
  exact ⟨span, name', attributes', next, yields_append_iff.mpr ⟨middle, hyields, hyields'⟩,
    Name.beq_symm hsame, htexts, hnext⟩

/-- An element is read again if its children are, also at the top level. -/
theorem IsAt.yields_element (hindent : indent.IsSpaces) {span : Span} {name : Name}
    {attributes : List Attribute} {children : List Node} {stream : TokenStream} {region : Region}
    (h : stream.IsAt (Layout.written indent level (.element span name attributes children) ++ rest)
      region depth)
    (hregion : region.allowsElement = true)
    (hwritable : (Node.element span name attributes children).Writable)
    (hchildren : ∀ child ∈ children, child.Writable)
    (hrereadable : ∀ child ∈ children, child.isText = false → child.Rereadable source indent) :
    ∃ tokens node' next, Yields stream tokens next ∧ ElementTokens source {} tokens node' ∧
      (Node.element span name attributes children).Requotes node' ∧
      next.IsAt rest (if depth = 0 then .afterRoot else .content) depth := by
  obtain ⟨hname, hattributes, hseparated⟩ := hwritable
  cases children with
  | nil =>
      rw [Layout.written, List.append_assoc] at h
      obtain ⟨first, name', attributes', middle, hstart, hsame, htexts, hmiddle⟩ :=
        h.yields_start hname hattributes rfl hregion
      obtain ⟨last, next, hend, hnext⟩ := hmiddle.yields_emptyTagEnd
      exact ⟨_, _, next, yields_append_iff.mpr ⟨middle, hstart, hend⟩,
        .empty first name' attributes' last, .element hsame htexts .nil, hnext⟩
  | cons child children =>
      have hwritten : Layout.written indent level
          (.element span name attributes (child :: children)) ++ rest =
            Layout.writtenStart name attributes ++ ([ '>' ] ++
              (Layout.writtenList indent (level + 1) (child :: children) ++
                (Layout.feed indent level ++
                  (['<', '/'] ++ name.display ++ [ '>' ] ++ rest)))) := by
        simp [Layout.written, Layout.writtenList]
      rw [hwritten] at h
      obtain ⟨first, name', attributes', inTag, hstart, hsame, htexts, hinTag⟩ :=
        h.yields_start hname hattributes rfl hregion
      obtain ⟨tagEnd, inside, hend, hinside⟩ := hinTag.yields_tagEnd
      -- the last gap in the content is the one before the closing tag
      obtain ⟨behind, ⟨tokens, children', hyields, hcontent, hrequotes⟩, hbehind⟩ :=
        hinside.rereads_list hindent (Nat.succ_pos depth) (Layout.feed_isSpaces hindent level)
          (List.cons_ne_nil _ _) rfl _ hchildren hseparated hrereadable
      obtain ⟨last, closing, next, hclose, hclosing, hnext⟩ := hbehind.yields_closeTag hname
      refine ⟨_, _, next, ?_, .closed first name' attributes' tagEnd last
        (Name.beq_trans (Name.beq_symm hsame) (Name.beq_symm hclosing)) hcontent,
        .element hsame htexts hrequotes, ?_⟩
      · have hinner := yields_append_iff.mpr ⟨behind, hyields, hclose⟩
        have htag := yields_append_iff.mpr ⟨inside, hend, hinner⟩
        exact yields_append_iff.mpr ⟨inTag, hstart, htag⟩
      · simpa using hnext

end TokenStream

/-! ## The recursion on the tree -/

namespace Node

variable {source indent : Text}

/-- Comments and instructions are read again in an element as they are anywhere. -/
theorem rereadable_of_aside (node : Node) (haside : node.isAside = true)
    (hwritable : node.Writable) : node.Rereadable source indent := by
  intro stream level depth rest h _
  obtain ⟨_, _, next, hyields, htokens, hrequotes, hnext⟩ :=
    h.yields_aside haside hwritable (by decide)
  exact ⟨next, ⟨_, _, hyields, htokens.content, .cons hrequotes .nil⟩, hnext⟩

mutual

theorem rereadable (hindent : indent.IsSpaces) (node : Node) (h : node.All Writable)
    (htext : node.isText = false) : node.Rereadable source indent :=
  match node with
  | element span name attributes children => by
      intro stream level depth rest hstream hdepth
      have hchildren := rereadable_list hindent children h.2
      obtain ⟨tokens, node', next, hyields, htokens, hrequotes, hnext⟩ :=
        hstream.yields_element hindent rfl h.1
          (fun child hchild => (hchildren child hchild).1) fun child hchild =>
          (hchildren child hchild).2
      -- inside another element the depth is not zero, so content follows
      rw [if_neg (by omega)] at hnext
      have hcontent := ContentTokens.element htokens .nil
      rw [List.append_nil] at hcontent
      exact ⟨next, ⟨tokens, [node'], hyields, hcontent, .cons hrequotes .nil⟩, hnext⟩
  | cdata span content => by
      intro stream level depth rest hstream _
      obtain ⟨_, _, next, hyields, hcontent, hnext⟩ := hstream.yields_cdata h
      exact ⟨next, ⟨_, _, hyields, .cdata _ _ .nil, .cons (.cdata hcontent.symm) .nil⟩, hnext⟩
  | comment content => rereadable_of_aside (comment content) rfl h
  | instruction span target content => rereadable_of_aside (instruction span target content) rfl h
  | text _ _ => nomatch htext
  | unsupported _ _ => False.elim h

theorem rereadable_list (hindent : indent.IsSpaces) (nodes : List Node)
    (h : AllList Writable nodes) :
    ∀ node ∈ nodes, node.Writable ∧ (node.isText = false → node.Rereadable source indent) :=
  match nodes with
  | [] => fun _ hnode => nomatch hnode
  | first :: rest => by
      have hfirst := rereadable hindent first h.1
      have hrest := rereadable_list hindent rest h.2
      exact List.forall_mem_cons.mpr ⟨⟨h.1.self, hfirst⟩, hrest⟩

end

end Node

end XmlOutline
