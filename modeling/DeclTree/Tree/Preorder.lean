import DeclTree.Tree.Node
/-!
# Pre-order

The order in which the declarations of a tree stand in the source: every node
before the nodes under it, and children from left to right. It is given twice,
by recursion on the tree and by a cursor that keeps the nodes still to come on
a stack.
-/
namespace DeclTree

namespace Node

/-! ## By recursion -/

mutual

/-- The node and all nodes under it. -/
def preorder : Node → List Node
  | ⟨s, c, e, ns⟩ => ⟨s, c, e, ns⟩ :: preorderAll ns

/-- The pre-orders of several trees, one after the other. -/
def preorderAll : List Node → List Node
  | [] => []
  | n :: ns => n.preorder ++ preorderAll ns

end

theorem preorder_eq (n : Node) : n.preorder = n :: preorderAll n.children := by
  cases n; rw [preorder]

@[simp] theorem preorderAll_nil : preorderAll [] = [] := by rw [preorderAll]

@[simp] theorem preorderAll_cons (n : Node) (ns : List Node) :
    preorderAll (n :: ns) = n.preorder ++ preorderAll ns := by rw [preorderAll]

theorem preorderAll_eq_flatMap (ns : List Node) : preorderAll ns = ns.flatMap preorder := by
  induction ns with
  | nil => simp
  | cons n ns ih => simp [ih]

@[simp] theorem preorderAll_append (ns ms : List Node) :
    preorderAll (ns ++ ms) = preorderAll ns ++ preorderAll ms := by
  simp [preorderAll_eq_flatMap]

end Node

/-! ## By a cursor -/

/-- A place in a traversal: a stack of the trees still to be visited. The next
one is on its top, which is the end of the array. -/
structure Cursor where
  stack : Array Node

namespace Cursor

/-- The trees still to be visited, read from the top of the stack to its bottom. -/
def pending (c : Cursor) : List Node := c.stack.toList.reverse

/-- The node on top of the stack and the place behind it. The node's children
are put on the stack in its stead, the last of them first. -/
def next? (c : Cursor) : Option (Node × Cursor) :=
  c.stack.back?.map fun n => (n, ⟨c.stack.pop ++ n.children.reverse⟩)

theorem next?_eq_none {c : Cursor} (h : c.next? = none) : c.pending = [] := by
  have hempty : c.stack = #[] := by simpa [next?] using h
  rw [pending, hempty, Array.toList_empty, List.reverse_nil]

/-- The two reversals cancel: what comes behind a node are its children, from
left to right, and then what was pending. -/
theorem next?_eq_some {c c' : Cursor} {n : Node} (h : c.next? = some (n, c')) :
    ∃ rest, c.pending = n :: rest ∧ c'.pending = n.children ++ rest := by
  obtain ⟨top, htop, he⟩ := Option.map_eq_some_iff.1 h
  obtain ⟨rfl, rfl⟩ := Prod.mk.inj he
  obtain ⟨below, hstack⟩ := Array.back?_eq_some_iff.1 htop
  refine ⟨below.toList.reverse, ?_, ?_⟩
  · simp [pending, hstack]
  · simp [pending, hstack]

/-- The number of nodes still to come. -/
def remaining (c : Cursor) : Nat := (Node.preorderAll c.pending).length

theorem remaining_next? {c c' : Cursor} {n : Node} (h : c.next? = some (n, c')) :
    c.remaining = c'.remaining + 1 := by
  obtain ⟨rest, hc, hc'⟩ := next?_eq_some h
  simp [remaining, hc, hc', Node.preorder_eq]

/-- All nodes still to come. -/
def toList (c : Cursor) : List Node :=
  match _ : c.next? with
  | none => []
  | some (n, c') => n :: c'.toList
termination_by c.remaining
decreasing_by rename_i h; rw [remaining_next? h]; omega

end Cursor

/-- A cursor over the nodes under a node: its children are on the stack, the
first of them on top. -/
def Node.descendants (n : Node) : Cursor := ⟨n.children.reverse.toArray⟩

@[simp] theorem Node.pending_descendants (n : Node) : n.descendants.pending = n.children := by
  simp [descendants, Cursor.pending]

end DeclTree
