import XmlOutline.Layout.Basic

/-!
# The two forms of the layout agree

Working through tasks yields the lines that the recursion on the tree describes,
or the first unsupported node of the tree.

## Strategy

The list of tasks is a stack, so what is proved is about a node on top of an
arbitrary rest: working through it comes to adding its lines to those that are
done and going on with the rest.  The statements for a node and for a list of
siblings need each other, as the tree does.
-/

namespace XmlOutline.Layout

/-- What working through tasks comes to when the tasks on top of `rest` hold the
given unsupported node, or yield the given lines. -/
private def after (found : Option (Span × UnsupportedKind)) (made : List Line)
    (rest : List (Task × Nat)) (done : Array Line) :
    Except (Span × UnsupportedKind) (Array Line) :=
  match found with
  | some error => .error error
  | none => run rest (done ++ made.toArray)

private theorem after_none_singleton (line : Line) (rest : List (Task × Nat))
    (done : Array Line) : after none [line] rest done = run rest (done.push line) := by
  simp [after]

mutual

/-- A node on top of other tasks. -/
private theorem run_visit (node : Node) (depth : Nat) (rest : List (Task × Nat))
    (done : Array Line) :
    run ((.visit node, depth) :: rest) done =
      after (firstUnsupported? node) (outline depth node) rest done :=
  match node with
  | .element span name attributes [] => by
      rw [run]
      exact (after_none_singleton _ rest done).symm
  | .element span name attributes (child :: children) => by
      rw [run, run_visits (child :: children) (depth + 1)]
      simp only [firstUnsupported?, outline, after]
      cases firstUnsupportedList? (child :: children) with
      | some error => rfl
      | none =>
          show run ((.close name, depth) :: rest) _ = _
          rw [run]
          simp [outlineList]
  | .text span content => by
      rw [run]
      exact (after_none_singleton _ rest done).symm
  | .cdata span content => by
      rw [run]
      exact (after_none_singleton _ rest done).symm
  | .comment content => by
      rw [run]
      exact (after_none_singleton _ rest done).symm
  | .instruction span target content => by
      rw [run]
      exact (after_none_singleton _ rest done).symm
  | .unsupported span kind => by
      rw [run]
      rfl

/-- Siblings on top of other tasks. -/
private theorem run_visits (nodes : List Node) (depth : Nat) (rest : List (Task × Nat))
    (done : Array Line) :
    run (visits depth nodes ++ rest) done =
      after (firstUnsupportedList? nodes) (outlineList depth nodes) rest done :=
  match nodes with
  | [] => by simp [visits, after, firstUnsupportedList?, outlineList]
  | node :: others => by
      show run ((.visit node, depth) :: (visits depth others ++ rest)) done = _
      rw [run_visit node depth]
      simp only [after, firstUnsupportedList?, outlineList]
      cases firstUnsupported? node with
      | some error => rfl
      | none =>
          rw [run_visits others depth]
          simp only [after, Option.none_or]
          cases firstUnsupportedList? others with
          | some error => rfl
          | none => simp

end

/-- The layout of a tree is what the recursion on the tree describes, unless the
tree has an unsupported node. -/
theorem lines_eq (nodes : List Node) :
    lines nodes =
      match firstUnsupportedList? nodes with
      | some error => .error error
      | none => .ok (outlineList 0 nodes) := by
  have hrun := run_visits nodes 0 [] #[]
  rw [List.append_nil] at hrun
  simp only [lines, hrun, after]
  cases firstUnsupportedList? nodes with
  | some error => rfl
  | none =>
      rw [run]
      simp [Functor.map, Except.map]

end XmlOutline.Layout
