import XmlOutline.Proofs.Outline.Documents
import XmlOutline.Proofs.Stripping.Joints

/-!
# Which lines belong to which node

A document is written in as many lines as it has nodes, and one more for each element with
children.  To say more than how many there are, every line is given the number of the node
that it belongs to, nodes being numbered in document order (`Layout.numbered`).  The nodes
below a node have the numbers that follow its own, so the lines of a whole subtree are told
by their numbers, and they stand together (`Layout.Holds`).  Of these the node itself has
the first one and, if there are children, the last one.

No line comes out blank unless a decoration of the user's own makes it so: control
sequences only add to the sign that a line starts with.  Then none is left out.

Main statement: `Document.toLines_numbered`.
-/

namespace XmlOutline

/-! ## Counting nodes -/

namespace Node

/-- The node is an element with at least one child. -/
def hasChildren (node : Node) : Bool := !node.children.isEmpty

/-- The number of nodes of a tree. -/
def count (node : Node) : Nat := (node.preorder 0).length

/-- The number of nodes of several trees. -/
def countList (nodes : List Node) : Nat := (preorderList 0 nodes).length

mutual

theorem length_preorder (node : Node) (depth : Nat) : (node.preorder depth).length = node.count :=
  match node with
  | element span name attributes children => by
      rw [count, preorder, preorder, List.length_cons, List.length_cons,
        length_preorderList children, length_preorderList children]
  | text _ _ | cdata _ _ | comment _ | instruction _ _ _ | unsupported _ _ => rfl

theorem length_preorderList (nodes : List Node) (depth : Nat) :
    (preorderList depth nodes).length = countList nodes :=
  match nodes with
  | [] => rfl
  | node :: rest => by
      rw [countList, preorderList, preorderList, List.length_append, List.length_append,
        length_preorder node, length_preorder node, length_preorderList rest,
        length_preorderList rest]

end

theorem count_element (span : Span) (name : Name) (attributes : List Attribute)
    (children : List Node) :
    count (.element span name attributes children) = countList children + 1 := by
  rw [count, preorder, List.length_cons, length_preorderList]

theorem countList_cons (node : Node) (rest : List Node) :
    countList (node :: rest) = node.count + countList rest := by
  rw [countList, preorderList, List.length_append, length_preorder, length_preorderList]

theorem count_pos (node : Node) : 0 < node.count := by
  cases node with
  | element span name attributes children =>
      rw [count_element]
      exact Nat.succ_pos _
  | _ => exact Nat.one_pos

end Node

/-! ## Numbered lines -/

namespace Layout

open Node (count countList)

mutual

/-- The lines of a node, each with the number of the node that it belongs to.  The own
lines of an element stand around those of its children. -/
def numbered (number depth : Nat) : Node → List (Nat × Line)
  | .element span name attributes children =>
      let own := (Node.ownLines depth (.element span name attributes children)).map (number, ·)
      own.take 1 ++ numberedList (number + 1) (depth + 1) children ++ own.drop 1
  | node => (node.ownLines depth).map (number, ·)

/-- The same for a list of siblings. -/
def numberedList (number depth : Nat) : List Node → List (Nat × Line)
  | [] => []
  | node :: rest => numbered number depth node ++ numberedList (number + node.count) depth rest

end

mutual

theorem map_numbered (node : Node) (number depth : Nat) :
    (numbered number depth node).map Prod.snd = outline depth node :=
  match node with
  | .element span name attributes [] => rfl
  | .element span name attributes (child :: children) => by
      have hchildren := map_numberedList (child :: children) (number + 1) (depth + 1)
      rw [outlineList] at hchildren
      rw [outline, ← hchildren, numbered, List.map_append, List.map_append]
      rfl
  | .text _ _ | .cdata _ _ | .comment _ | .instruction _ _ _ | .unsupported _ _ => rfl

/-- But for the numbers these are the lines of the tree. -/
theorem map_numberedList (nodes : List Node) (number depth : Nat) :
    (numberedList number depth nodes).map Prod.snd = outlineList depth nodes :=
  match nodes with
  | [] => rfl
  | node :: rest => by
      rw [numberedList, outlineList, List.map_append, map_numbered node, map_numberedList rest]

end

private theorem number_of_mem_own {number : Nat} {own : List Line} {line : Nat × Line}
    (h : line ∈ own.map (number, ·)) : line.1 = number := by
  obtain ⟨_, _, rfl⟩ := List.mem_map.mp h
  rfl

mutual

theorem number_of_mem_numbered (node : Node) (number depth : Nat) :
    ∀ line ∈ numbered number depth node, number ≤ line.1 ∧ line.1 < number + node.count :=
  match node with
  | .element span name attributes children => by
      intro line hline
      have hcount := Node.count_element span name attributes children
      simp only [numbered, List.mem_append] at hline
      rcases hline with (hline | hline) | hline
      · have := number_of_mem_own (List.mem_of_mem_take hline)
        omega
      · have := number_of_mem_numberedList children (number + 1) (depth + 1) line hline
        omega
      · have := number_of_mem_own (List.mem_of_mem_drop hline)
        omega
  | .text _ _ | .cdata _ _ | .comment _ | .instruction _ _ _ | .unsupported _ _ => by
      intro line hline
      have hnumber := number_of_mem_own hline
      have hpos := Node.count_pos
      exact ⟨hnumber.ge, hnumber ▸ Nat.lt_add_of_pos_right (hpos _)⟩

theorem number_of_mem_numberedList (nodes : List Node) (number depth : Nat) :
    ∀ line ∈ numberedList number depth nodes,
      number ≤ line.1 ∧ line.1 < number + countList nodes :=
  match nodes with
  | [] => fun _ hnone => nomatch hnone
  | node :: rest => by
      intro line hline
      have hcount := Node.countList_cons node rest
      rcases List.mem_append.mp hline with hline | hline
      · have := number_of_mem_numbered node number depth line hline
        omega
      · have := number_of_mem_numberedList rest (number + node.count) depth line hline
        omega

end

/-! ## The lines of a subtree -/

/-- Among these lines the ones of a tree stand together, and its numbers are theirs alone. -/
def Holds (lines : List (Nat × Line)) (number depth : Nat) (node : Node) : Prop :=
  ∃ before after, lines = before ++ numbered number depth node ++ after ∧
    ∀ line ∈ before ++ after, line.1 < number ∨ number + node.count ≤ line.1

variable {lines first last : List (Nat × Line)} {number depth here place : Nat}
  {node inner : Node} {nodes : List Node}

theorem holds_self (number depth : Nat) (node : Node) :
    Holds (numbered number depth node) number depth node :=
  ⟨[], [], by simp, by simp⟩

theorem Holds.between (h : Holds lines number depth node)
    (hother : ∀ line ∈ first ++ last, line.1 < number ∨ number + node.count ≤ line.1) :
    Holds (first ++ lines ++ last) number depth node := by
  obtain ⟨before, after, rfl, hnumbers⟩ := h
  refine ⟨first ++ before, after ++ last, by simp, fun line hline => ?_⟩
  simp only [List.mem_append] at hline hother hnumbers
  rcases hline with (hline | hline) | hline | hline
  · exact hother line (Or.inl hline)
  · exact hnumbers line (Or.inl hline)
  · exact hnumbers line (Or.inr hline)
  · exact hother line (Or.inr hline)

mutual

/-- A node that comes at some place in document order has its lines, with that number,
among those of the tree. -/
theorem holds_numbered (node : Node) (number depth place : Nat)
    (h : (node.preorder depth)[place]? = some (here, inner)) :
    place + inner.count ≤ node.count ∧
      Holds (numbered number depth node) (number + place) here inner :=
  match node, place with
  | node, 0 => by
      have hself : (node.preorder depth)[0]? = some (depth, node) := by cases node <;> rfl
      obtain ⟨rfl, rfl⟩ := Prod.mk.inj (Option.some.inj (hself.symm.trans h))
      exact ⟨(Nat.zero_add _).le, holds_self number depth node⟩
  | .element span name attributes children, place + 1 => by
      have hcount := Node.count_element span name attributes children
      obtain ⟨hle, hholds⟩ := holds_numberedList children (number + 1) (depth + 1) place h
      rw [Nat.add_right_comm, Nat.add_assoc] at hholds
      refine ⟨by omega, hholds.between fun line hline => Or.inl ?_⟩
      have hnumber : line.1 = number := by
        rcases List.mem_append.mp hline with hline | hline
        · exact number_of_mem_own (List.mem_of_mem_take hline)
        · exact number_of_mem_own (List.mem_of_mem_drop hline)
      omega
  | .text _ _, _ + 1 | .cdata _ _, _ + 1 | .comment _, _ + 1 | .instruction _ _ _, _ + 1
  | .unsupported _ _, _ + 1 => nomatch h

theorem holds_numberedList (nodes : List Node) (number depth place : Nat)
    (h : (Node.preorderList depth nodes)[place]? = some (here, inner)) :
    place + inner.count ≤ countList nodes ∧
      Holds (numberedList number depth nodes) (number + place) here inner :=
  match nodes with
  | [] => nomatch h
  | node :: rest => by
      have hcount := Node.countList_cons node rest
      have hlength := Node.length_preorder node depth
      rw [Node.preorderList] at h
      by_cases hplace : place < node.count
      · rw [List.getElem?_append_left (by omega)] at h
        obtain ⟨hle, hholds⟩ := holds_numbered node number depth place h
        refine ⟨by omega, ?_⟩
        have hbehind : Holds ([] ++ numbered number depth node ++
            numberedList (number + node.count) depth rest) (number + place) here inner := by
          refine hholds.between fun line hline => Or.inr ?_
          have := number_of_mem_numberedList rest _ _ line hline
          omega
        exact hbehind
      · rw [List.getElem?_append_right (by omega), hlength] at h
        obtain ⟨hle, hholds⟩ :=
          holds_numberedList rest (number + node.count) depth (place - node.count) h
        have hnumber : number + node.count + (place - node.count) = number + place := by omega
        rw [hnumber] at hholds
        refine ⟨by omega, ?_⟩
        have hbefore : Holds (numbered number depth node ++
            numberedList (number + node.count) depth rest ++ []) (number + place) here inner := by
          refine hholds.between fun line hline => Or.inl ?_
          rw [List.append_nil] at hline
          have := number_of_mem_numbered node _ _ line hline
          omega
        rw [List.append_nil] at hbefore
        exact hbefore

end

theorem length_ownLines (hsupported : node.unsupported? = none) (depth : Nat) :
    (node.ownLines depth).length = 1 + if node.hasChildren then 1 else 0 := by
  cases node with
  | element span name attributes children => cases children <;> rfl
  | unsupported span kind => cases hsupported
  | _ => rfl

theorem length_linesOf {entries : List (Nat × Node)}
    (hsupported : ∀ entry ∈ entries, entry.2.unsupported? = none) :
    (Node.linesOf entries).length =
      entries.length + entries.countP fun entry => entry.2.hasChildren := by
  induction entries with
  | nil => rfl
  | cons entry entries ih =>
      have hown := length_ownLines (hsupported entry List.mem_cons_self) entry.1
      have hrest := ih fun other hother => hsupported other (List.mem_cons_of_mem _ hother)
      calc (Node.linesOf (entry :: entries)).length
          = (entry.2.ownLines entry.1).length + (Node.linesOf entries).length :=
            List.length_append
        _ = (1 + if entry.2.hasChildren then 1 else 0) +
              (entries.length + entries.countP fun entry => entry.2.hasChildren) := by
            rw [hown, hrest]
        _ = (entry :: entries).length +
              (entry :: entries).countP fun entry => entry.2.hasChildren := by
            rw [List.countP_cons, List.length_cons]
            omega

/-- There is a line for each node, and one more for each element with children. -/
theorem length_numberedList
    (hsupported : ∀ entry ∈ Node.preorderList 0 nodes, entry.2.unsupported? = none) :
    (numberedList 0 0 nodes).length = (Node.preorderList 0 nodes).length +
      (Node.preorderList 0 nodes).countP fun entry => entry.2.hasChildren := by
  rw [← length_linesOf hsupported, ← (outlineList_perm nodes 0).length_eq,
    ← map_numberedList nodes 0 0, List.length_map]

end Layout

/-! ## Which lines a node has -/

/-- One line has the number, and it is this one. -/
def Line.StandsAlone (lines : List (Nat × Line)) (number : Nat) (line : Line) : Prop :=
  ∃ before after, lines = before ++ (number, line) :: after ∧
    ∀ other ∈ before ++ after, other.1 ≠ number

/-- Two lines have the number, and these are the ones.  Between them stand all lines with one
of the next numbers, as many as there are nodes below, and no others. -/
def Line.StandAround (lines : List (Nat × Line)) (number below : Nat) (opening closing : Line) :
    Prop :=
  ∃ before inner after,
    lines = before ++ (number, opening) :: inner ++ (number, closing) :: after ∧
    (∀ other ∈ inner, number < other.1 ∧ other.1 ≤ number + below) ∧
    ∀ other ∈ before ++ after, other.1 < number ∨ number + below < other.1

/-- The lines that have the number of a node: of an element with children, the start tag
and, behind the lines of all nodes below it, the closing tag; of any other node, one. -/
def Node.StandsIn (lines : List (Nat × Line)) (number depth : Nat) : Node → Prop
  | element _ name attributes [] =>
      Line.StandsAlone lines number ⟨depth, Line.startTag name attributes false⟩
  | element _ name attributes (child :: children) =>
      Line.StandAround lines number (countList (child :: children))
        ⟨depth, Line.startTag name attributes true⟩ ⟨depth, Line.closeTag name⟩
  | node => ∃ line, node.ownLines depth = [line] ∧ Line.StandsAlone lines number line

namespace Layout

theorem Holds.standsIn {lines : List (Nat × Line)} {number depth : Nat} {node : Node}
    (h : Holds lines number depth node) (hsupported : node.unsupported? = none) :
    Node.StandsIn lines number depth node := by
  obtain ⟨before, after, rfl, hnumbers⟩ := h
  have hpos := node.count_pos
  have halone {line : Line} (hown : numbered number depth node = [(number, line)]) :
      Line.StandsAlone (before ++ numbered number depth node ++ after) number line := by
    refine ⟨before, after, by rw [hown]; simp, fun other hother => ?_⟩
    have := hnumbers other hother
    omega
  cases node with
  | element span name attributes children =>
      have hcount := Node.count_element span name attributes children
      cases children with
      | nil => exact halone rfl
      | cons child children =>
          refine ⟨before, numberedList (number + 1) (depth + 1) (child :: children), after, ?_,
            fun other hother => ?_, fun other hother => ?_⟩
          · simp [numbered, Node.ownLines]
          · have := number_of_mem_numberedList _ _ _ other hother
            omega
          · have := hnumbers other hother
            omega
  | text span content => exact ⟨_, rfl, halone rfl⟩
  | cdata span content => exact ⟨_, rfl, halone rfl⟩
  | comment content => exact ⟨_, rfl, halone rfl⟩
  | instruction span target content => exact ⟨_, rfl, halone rfl⟩
  | unsupported span kind => cases hsupported

end Layout

/-! ## How a line ends -/

/-- A sign at the end of a line is stripped to itself, whatever stands before it. -/
theorem Line.strip_render_snoc {depth : Nat} {pieces : List Piece} {last : Piece} {style : Style}
    (hlast : last.isSign = true) (hstyle : style.IsRemovable) (indent : Text) :
    Sgr.strip (Line.render indent style ⟨depth, pieces ++ [last]⟩) =
      Sgr.strip (Line.render indent style ⟨depth, pieces⟩) ++ last.render .plain := by
  have hcut : Sgr.CutsOff (last.render style) := by
    have := Piece.cutsOff_of_isSign hlast hstyle []
    rwa [List.append_nil] at this
  have hsplit : Line.render indent style ⟨depth, pieces ++ [last]⟩ =
      Line.render indent style ⟨depth, pieces⟩ ++ last.render style := by
    simp [Line.render]
  rw [hsplit, Sgr.strip_append_of_cutsOff _ hcut, (Piece.stripsTo_of_isSign hlast hstyle).strip_eq]

/-! ## Documents -/

/-- A document without unsupported nodes has as many lines as it has nodes, and one more
for each element with children.  In a style without custom decorations none of them comes
out blank, so all of them are written.  Each node has its lines among them: an element with
children two, around those of all nodes below it, and any other node one.  If control
sequences are all that the style adds, the line of an element without children still ends
in ` />` when they are removed. -/
theorem Document.toLines_numbered {document : Document} {style : Style}
    (hsupported : ∀ depth span kind,
      (depth, .unsupported span kind) ∉ Node.preorderList 0 document.children)
    (hstyle : ∀ role render, style.decoration role ≠ .custom render) (indent : Text) :
    ∃ lines : List (Nat × Line),
      Layout.lines document.children = .ok (lines.map Prod.snd) ∧
      document.toLines { indent, style } =
        .ok (lines.map fun line => line.2.render indent style) ∧
      (∀ line ∈ lines, Text.isBlank (line.2.render indent style) = false) ∧
      lines.length = (Node.preorderList 0 document.children).length +
        (Node.preorderList 0 document.children).countP (fun entry => entry.2.hasChildren) ∧
      (∀ number depth node, (Node.preorderList 0 document.children)[number]? = some (depth, node) →
        Node.StandsIn lines number depth node) ∧
      (style.IsRemovable → ∀ depth name attributes,
        " />".toList <:+
          Sgr.strip (Line.render indent style ⟨depth, Line.startTag name attributes false⟩)) := by
  have hnone := (Layout.firstUnsupportedList?_eq_none_iff 0).mpr hsupported
  have hentries := Layout.forall_unsupported?_eq_none_iff.mpr hsupported
  have hlines := Layout.map_numberedList document.children 0 0
  have hshown : ∀ line ∈ Layout.outlineList 0 document.children,
      Text.isBlank (line.render indent style) = false :=
    Layout.forall_mem_outlineList fun entry _ line hline =>
      (Node.shows_of_mem_ownLines line hline).not_blank (Style.subset_paint hstyle)
  refine ⟨Layout.numberedList 0 0 document.children, ?_, ?_, fun line hline => ?_,
    Layout.length_numberedList hentries, fun number depth node hnode => ?_,
    fun hremovable depth name attributes => ?_⟩
  · rw [Layout.lines_eq, hnone, hlines]
  · rw [toLines_eq_of_not_blank hshown, hnone, ← hlines, List.map_map]
    rfl
  · refine hshown line.2 ?_
    rw [← hlines]
    exact List.mem_map_of_mem hline
  · have hholds := (Layout.holds_numberedList document.children 0 0 number hnode).2
    rw [Nat.zero_add] at hholds
    exact hholds.standsIn (hentries _ (List.mem_of_getElem? hnode))
  · unfold Line.startTag
    rw [Line.strip_render_snoc (by decide) hremovable]
    exact List.suffix_append _ _

/-- Four nodes, of which one has children; blank text, an empty name and a style that cannot
be removed again make no difference. -/
theorem Document.toLines_numbered_blank :
    let name (text : String) : Name := ⟨none, ⟨text.toList, 0⟩⟩
    let root : Node := .element {} (name "a") [] [.element {} (name "") [] [], .text {} {}]
    let document : Document := ⟨[.comment {}, root], []⟩
    let style := Style.decorated.update .elementSyntax (.sgr " ".toList)
    (∀ depth span kind,
      (depth, .unsupported span kind) ∉ Node.preorderList 0 document.children) ∧
    (∀ role render, style.decoration role ≠ .custom render) ∧
    ∃ lines : List (Nat × Line),
      document.toLines { indent := ['\t'], style } =
        .ok (lines.map fun line => line.2.render ['\t'] style) ∧
      lines.length = 5 ∧ Node.StandsIn lines 1 0 root := by
  intro name root document style
  have hsupported : ∀ depth span kind,
      (depth, .unsupported span kind) ∉ Node.preorderList 0 document.children := by
    simp [document, root, Node.preorderList, Node.preorder]
  have hstyle : ∀ role render, style.decoration role ≠ .custom render := by
    intro role render
    by_cases hrole : role = .elementSyntax
    · have hdecoration : style.decoration role = .sgr " ".toList := if_pos hrole
      rw [hdecoration]
      intro heq
      cases heq
    · have hsame : style.decoration role = Style.decorated.decoration role := if_neg hrole
      rw [hsame]
      exact (Style.isRemovable_decorated role).ne_custom render
  obtain ⟨lines, _, htoLines, _, hlength, hstands, _⟩ :=
    toLines_numbered hsupported hstyle ['\t']
  exact ⟨hsupported, hstyle, lines, htoLines, hlength, hstands 1 0 root rfl⟩

end XmlOutline
