import XmlOutline.Layout.Basic
import XmlOutline.Proofs.Nodes
import XmlOutline.Text.Blank

/-!
# The lines that nodes have themselves

Every line of an outline belongs to one node: an element has its tags, any other node
the one line that it is.  An outline puts the lines of an element around those of its
children, so it is not the list of these lines node by node; but it holds the same
lines equally often (`Layout.outlineList_perm`).

What holds of every line therefore needs no induction on the tree: it is enough to look
at the lines of a single node, as is done here to see that no line can come out blank
(`Node.shows_of_mem_ownLines`).
-/

namespace XmlOutline

/-- The lines that the node has apart from the nodes below it. -/
def Node.ownLines (depth : Nat) : Node → List Line
  | element _ name attributes [] => [⟨depth, Line.startTag name attributes false⟩]
  | element _ name attributes (_ :: _) =>
      [⟨depth, Line.startTag name attributes true⟩, ⟨depth, Line.closeTag name⟩]
  | text _ content => [⟨depth, Line.text content.text⟩]
  | cdata _ content => [⟨depth, Line.cdata content.text⟩]
  | comment content => [⟨depth, Line.comment content.text⟩]
  | instruction _ target content =>
      [⟨depth, Line.instruction target.text (content.map Span.text)⟩]
  | unsupported _ _ => []

/-- The lines of several nodes, each with its depth, node by node. -/
def Node.linesOf (entries : List (Nat × Node)) : List Line :=
  entries.flatMap fun entry => entry.2.ownLines entry.1

namespace Layout

/-! ## The lines of a tree are those of its nodes -/

mutual

theorem outline_perm (node : Node) (depth : Nat) :
    (outline depth node).Perm (Node.linesOf (node.preorder depth)) :=
  match node with
  | .element span name attributes [] => .refl _
  | .element span name attributes (child :: children) => by
      have hchildren := outlineList_perm (child :: children) (depth + 1)
      rw [outlineList] at hchildren
      -- the closing tag moves from behind the children to the start tag
      have hclose := hchildren.append_right [(⟨depth, Line.closeTag name⟩ : Line)]
      exact (hclose.trans List.perm_append_comm).cons _
  | .text _ _ | .cdata _ _ | .comment _ | .instruction _ _ _ | .unsupported _ _ => .refl _

/-- The lines of a tree are the lines of its nodes, though in another order. -/
theorem outlineList_perm (nodes : List Node) (depth : Nat) :
    (outlineList depth nodes).Perm (Node.linesOf (Node.preorderList depth nodes)) :=
  match nodes with
  | [] => .refl _
  | node :: rest => by
      unfold outlineList Node.preorderList Node.linesOf
      rw [List.flatMap_append]
      exact (outline_perm node depth).append (outlineList_perm rest depth)

end

/-- What holds of the own lines of each node holds of all lines. -/
theorem forall_mem_outlineList {property : Line → Prop} {nodes : List Node} {depth : Nat}
    (h : ∀ entry ∈ Node.preorderList depth nodes, ∀ line ∈ entry.2.ownLines entry.1,
      property line) : ∀ line ∈ outlineList depth nodes, property line := by
  intro line hline
  obtain ⟨entry, hentry, hline⟩ :=
    List.mem_flatMap.mp ((outlineList_perm nodes depth).mem_iff.mp hline)
  exact h entry hentry line hline

end Layout

/-! ## Every line shows -/

/-- Text that shows even if all around it is blank. -/
def Piece.Shows : Piece → Prop
  | token _ text => ∃ c ∈ text, Text.isBlankChar c = false
  | gap => False

/-- Some piece of the line shows. -/
def Line.Shows (line : Line) : Prop := ∃ piece ∈ line.pieces, piece.Shows

/-- A sign shows in front of whatever follows it. -/
theorem Line.shows_of_sign {depth : Nat} {role : Role} {sign : String} {rest : List Piece}
    (hsign : Text.isBlank sign.toList = false) : Shows ⟨depth, .sign role sign :: rest⟩ := by
  obtain ⟨c, hc, hblank⟩ := List.all_eq_false.mp hsign
  exact ⟨.sign role sign, List.mem_cons_self, c, hc, Bool.eq_false_iff.mpr hblank⟩

/-- Each kind of line starts with a sign of its own. -/
theorem Node.shows_of_mem_ownLines {node : Node} {depth : Nat} :
    ∀ line ∈ node.ownLines depth, line.Shows := by
  intro line hline
  cases node with
  | element span name attributes children =>
      cases children with
      | nil =>
          rw [List.mem_singleton.mp hline]
          exact Line.shows_of_sign (by decide)
      | cons child children =>
          simp only [ownLines, List.mem_cons, List.not_mem_nil, or_false] at hline
          rcases hline with rfl | rfl
          · exact Line.shows_of_sign (by decide)
          · exact Line.shows_of_sign (by decide)
  | text span content | cdata span content | comment content | instruction span target content =>
      rw [List.mem_singleton.mp hline]
      exact Line.shows_of_sign (by decide)
  | unsupported span kind => cases hline

/-- A line is not blank in a style that writes all of each text, be there more or not. -/
theorem Line.Shows.not_blank {line : Line} {style : Style} {indent : Text} (h : line.Shows)
    (hkeeps : ∀ role text, text ⊆ style.paint role text) :
    Text.isBlank (line.render indent style) = false := by
  obtain ⟨piece, hpiece, hshows⟩ := h
  cases piece with
  | gap => exact hshows.elim
  | token role text =>
      obtain ⟨c, hc, hblank⟩ := hshows
      have hmem : c ∈ line.render indent style := by
        apply List.mem_append_right
        exact List.mem_flatten.mpr ⟨_, List.mem_map_of_mem hpiece, hkeeps role text hc⟩
      exact List.all_eq_false.mpr ⟨c, hmem, by simp [hblank]⟩

end XmlOutline
