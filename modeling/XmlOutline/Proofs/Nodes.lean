import XmlOutline.Node

/-!
# Properties of all nodes of a tree

Many properties of a document say something of every node in it, at any depth.
`Node.All` goes through a tree for this in the way that proofs do, and `all_iff` ties
it to the nodes that `Node.preorder` lists.
-/

namespace XmlOutline.Node

mutual

/-- The node and all nodes below it have the property. -/
def All (property : Node → Prop) : Node → Prop
  | element span name attributes children =>
      property (element span name attributes children) ∧ AllList property children
  | node => property node

/-- The same for a list of siblings. -/
def AllList (property : Node → Prop) : List Node → Prop
  | [] => True
  | node :: rest => All property node ∧ AllList property rest

end

variable {property : Node → Prop} {node : Node} {nodes nodes' : List Node}

theorem allList_append :
    AllList property (nodes ++ nodes') ↔ AllList property nodes ∧ AllList property nodes' := by
  induction nodes with
  | nil => simp [AllList]
  | cons node nodes ih => simp [AllList, ih, and_assoc]

/-- Of a tree the node itself has the property. -/
theorem All.self (h : All property node) : property node := by
  cases node with
  | element => exact h.1
  | _ => exact h

theorem AllList.forall_mem (h : AllList property nodes) : ∀ node ∈ nodes, property node := by
  induction nodes with
  | nil => simp
  | cons node nodes ih => exact List.forall_mem_cons.mpr ⟨h.1.self, ih h.2⟩

mutual

theorem all_iff (node : Node) (depth : Nat) :
    All property node ↔ ∀ entry ∈ preorder depth node, property entry.2 :=
  match node with
  | element span name attributes children => by
      rw [All, preorder, allList_iff children (depth + 1), List.forall_mem_cons]
  | text _ _ | cdata _ _ | comment _ | instruction _ _ _ | unsupported _ _ => by
      simp [All, preorder]

theorem allList_iff (nodes : List Node) (depth : Nat) :
    AllList property nodes ↔ ∀ entry ∈ preorderList depth nodes, property entry.2 :=
  match nodes with
  | [] => by simp [AllList, preorderList]
  | node :: rest => by
      rw [AllList, preorderList, all_iff node depth, allList_iff rest depth,
        List.forall_mem_append]

end

theorem All.mono {weaker : Node → Prop} (h : All property node)
    (hweaker : ∀ node, property node → weaker node) : All weaker node :=
  (all_iff node 0).mpr fun entry hentry => hweaker entry.2 ((all_iff node 0).mp h entry hentry)

end XmlOutline.Node
