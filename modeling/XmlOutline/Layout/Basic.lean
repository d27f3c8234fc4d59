import XmlOutline.Layout.Line

/-!
# The lines of a tree

An element with children is a start tag, the lines of its children one level
deeper, and a closing tag; an element without children is one line, and so is
any other node.  A tree that holds an unsupported node has no layout.

There are two forms of this.  `Layout.outline` follows the tree and is the one
to reason with.  `Layout.run` works through a list of tasks instead, so that
deep trees need no deep recursion, and stops at the first unsupported node; it
is the one that is used.  `Layout.Lemmas` shows that they agree.
-/

namespace XmlOutline.Layout

/-! ## By recursion on the tree -/

mutual

/-- The lines of a node that stands at a depth.  An unsupported node has none. -/
def outline (depth : Nat) : Node → List Line
  | .element _ name attributes [] => [⟨depth, Line.startTag name attributes false⟩]
  | .element _ name attributes (child :: children) =>
      ⟨depth, Line.startTag name attributes true⟩ ::
        (outline (depth + 1) child ++ outlineList (depth + 1) children) ++
          [⟨depth, Line.closeTag name⟩]
  | .text _ content => [⟨depth, Line.text content.text⟩]
  | .cdata _ content => [⟨depth, Line.cdata content.text⟩]
  | .comment content => [⟨depth, Line.comment content.text⟩]
  | .instruction _ target content =>
      [⟨depth, Line.instruction target.text (content.map Span.text)⟩]
  | .unsupported _ _ => []

/-- The lines of a list of siblings. -/
def outlineList (depth : Nat) : List Node → List Line
  | [] => []
  | node :: rest => outline depth node ++ outlineList depth rest

end

mutual

/-- The first unsupported node of a tree, in document order. -/
def firstUnsupported? : Node → Option (Span × UnsupportedKind)
  | .element _ _ _ children => firstUnsupportedList? children
  | .unsupported span kind => some (span, kind)
  | _ => none

/-- The first unsupported node among siblings and below them. -/
def firstUnsupportedList? : List Node → Option (Span × UnsupportedKind)
  | [] => none
  | node :: rest => (firstUnsupported? node).or (firstUnsupportedList? rest)

end

/-! ## By working through tasks -/

/-- Something that is still to be laid out. -/
inductive Task where
  /-- A node with all that is below it. -/
  | visit (node : Node)
  /-- The closing tag of an element. -/
  | close (name : Name)

mutual

/-- An upper bound of the number of tasks that a node gives rise to. -/
def weight : Node → Nat
  | .element _ _ _ children => 2 + weightList children
  | _ => 1

/-- The same for a list of siblings. -/
def weightList : List Node → Nat
  | [] => 0
  | node :: rest => weight node + weightList rest

end

/-- The same for a task. -/
def Task.weight : Task → Nat
  | visit node => Layout.weight node
  | close _ => 1

/-- The same for a list of tasks. -/
def pending : List (Task × Nat) → Nat
  | [] => 0
  | task :: rest => task.1.weight + pending rest

/-- The nodes of a list as tasks at a depth. -/
def visits (depth : Nat) (nodes : List Node) : List (Task × Nat) :=
  nodes.map fun node => (.visit node, depth)

theorem pending_cons (task : Task × Nat) (rest : List (Task × Nat)) :
    pending (task :: rest) = task.1.weight + pending rest := rfl

theorem pending_append (first second : List (Task × Nat)) :
    pending (first ++ second) = pending first + pending second := by
  induction first with
  | nil => simp [pending]
  | cons task rest ih => simp only [List.cons_append, pending, ih, Nat.add_assoc]

theorem pending_visits (depth : Nat) (nodes : List Node) :
    pending (visits depth nodes) = weightList nodes := by
  induction nodes with
  | nil => rfl
  | cons node rest ih =>
      show weight node + pending (visits depth rest) = weight node + weightList rest
      rw [ih]

/-- Works through tasks, each with its depth, and adds their lines to those that
are done.  The first unsupported node ends the work. -/
def run (tasks : List (Task × Nat)) (done : Array Line) :
    Except (Span × UnsupportedKind) (Array Line) :=
  match tasks with
  | [] => .ok done
  | (.close name, depth) :: rest => run rest (done.push ⟨depth, Line.closeTag name⟩)
  | (.visit (.element _ name attributes children), depth) :: rest =>
      let done := done.push ⟨depth, Line.startTag name attributes !children.isEmpty⟩
      if children.isEmpty then run rest done
      else run (visits (depth + 1) children ++ (.close name, depth) :: rest) done
  | (.visit (.text _ content), depth) :: rest =>
      run rest (done.push ⟨depth, Line.text content.text⟩)
  | (.visit (.cdata _ content), depth) :: rest =>
      run rest (done.push ⟨depth, Line.cdata content.text⟩)
  | (.visit (.comment content), depth) :: rest =>
      run rest (done.push ⟨depth, Line.comment content.text⟩)
  | (.visit (.instruction _ target content), depth) :: rest =>
      run rest (done.push ⟨depth, Line.instruction target.text (content.map Span.text)⟩)
  | (.visit (.unsupported span kind), _) :: _ => .error (span, kind)
termination_by pending tasks
decreasing_by
  all_goals simp only [pending_cons, pending_append, pending_visits, Task.weight, weight]
  all_goals omega

/-- The lines of a list of nodes at the top level, or the first unsupported node
among them and below them. -/
def lines (nodes : List Node) : Except (Span × UnsupportedKind) (List Line) :=
  Array.toList <$> run (visits 0 nodes) #[]

end XmlOutline.Layout
