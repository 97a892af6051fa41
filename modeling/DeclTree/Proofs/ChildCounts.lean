import DeclTree.Proofs.Nesting
/-!
# Rows with child counts

The rows of a tree, each with the number of the node's children, tell the whole
tree, whatever its shape. Read from the last row to the first, every row takes
as many of the trees read so far as it has children. It follows that the rows of
a tree also tell where they end: no tree's rows are the beginning of another's.
-/
namespace DeclTree

/-! ## Counted rows -/

namespace Node

/-- The node's row and the number of its children. -/
def countedRow (n : Node) : Row × Nat := (n.row, n.children.length)

/-- The counted rows of the node and of all that a cursor over it hands out. -/
def countedRows (n : Node) : List (Row × Nat) := (n :: n.descendants.toList).map countedRow

theorem countedRows_eq (n : Node) : n.countedRows = n.preorder.map countedRow := by
  rw [countedRows, toList_descendants, preorder_eq]

end Node

/-! ## Reading from the right -/

namespace Row

/-- The row takes as many of the trees after it for its children as it counts. -/
def adopt (r : Row × Nat) (trees : List Node) : List Node :=
  r.1.node (trees.take r.2) :: trees.drop r.2

/-- Reads rows from the last to the first, before trees that stand after them. -/
def readOnto (rows : List (Row × Nat)) (trees : List Node) : List Node := rows.foldr adopt trees

@[simp] theorem readOnto_nil (trees : List Node) : readOnto [] trees = trees := rfl

@[simp] theorem readOnto_cons (r : Row × Nat) (rows : List (Row × Nat)) (trees : List Node) :
    readOnto (r :: rows) trees = adopt r (readOnto rows trees) := rfl

@[simp] theorem readOnto_append (rows rows' : List (Row × Nat)) (trees : List Node) :
    readOnto (rows ++ rows') trees = readOnto rows (readOnto rows' trees) := List.foldr_append

/-- A node's row takes the node's children and leaves the trees after them. -/
theorem adopt_countedRow (n : Node) (trees : List Node) :
    adopt n.countedRow (n.children ++ trees) = n :: trees := by
  rw [adopt, Node.countedRow, List.take_left, List.drop_left, Node.node_row]

/-- Trees whose rows are read one by one are read one after the other. -/
theorem readOnto_preorderAll {ns : List Node}
    (each : ∀ c ∈ ns, ∀ trees, readOnto (c.preorder.map Node.countedRow) trees = c :: trees) (trees : List Node) :
    readOnto ((Node.preorderAll ns).map Node.countedRow) trees = ns ++ trees := by
  induction ns with
  | nil => simp
  | cons c ns ih =>
    obtain ⟨hc, hns⟩ := List.forall_mem_cons.1 each
    rw [Node.preorderAll_cons, List.map_append, readOnto_append, ih hns, hc, List.cons_append]

/-- The rows of a tree are read as the tree, whatever stands after them. -/
theorem readOnto_preorder (n : Node) (trees : List Node) :
    readOnto (n.preorder.map Node.countedRow) trees = n :: trees := by
  -- For any trees after it, since a child has its right siblings there.
  induction n using Node.induction generalizing trees with
  | step n ih =>
    rw [Node.preorder_eq, List.map_cons, readOnto_cons, readOnto_preorderAll ih, adopt_countedRow]

theorem readOnto_countedRows (n : Node) (trees : List Node) : readOnto n.countedRows trees = n :: trees := by
  rw [Node.countedRows_eq, readOnto_preorder]

end Row

namespace Node

/-- Rows that begin with those of a tree begin with those of no other tree. -/
theorem countedRows_append_inj {a b : Node} {after after' : List (Row × Nat)} :
    a.countedRows ++ after = b.countedRows ++ after' ↔ a = b ∧ after = after' := by
  constructor
  · intro h
    have hread := congrArg (Row.readOnto · []) h
    simp only [Row.readOnto_append, Row.readOnto_countedRows, List.cons.injEq] at hread
    obtain ⟨rfl, -⟩ := hread
    exact ⟨rfl, List.append_cancel_left h⟩
  · rintro ⟨rfl, rfl⟩
    rfl

/-! ## Main theorem -/

/-- Two trees of any shape are equal exactly if their counted rows are. The tree
can be read from its rows, and it is clear from them where they end. -/
theorem eq_iff_countedRows (a b : Node) :
    (a = b ↔ a.countedRows = b.countedRows) ∧ Row.readOnto a.countedRows [] = [a] ∧
    ∀ after after', a.countedRows ++ after = b.countedRows ++ after' ↔ a = b ∧ after = after' := by
  refine ⟨⟨congrArg countedRows, ?_⟩, Row.readOnto_countedRows a [], fun after after' => countedRows_append_inj⟩
  intro h
  have hnil : a.countedRows ++ [] = b.countedRows ++ [] := congrArg (· ++ []) h
  exact (countedRows_append_inj.1 hnil).1

end Node

end DeclTree
