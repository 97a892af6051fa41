import DeclTree.Proofs.Addresses
/-!
# The cursor's order

A cursor hands out the nodes under a node in pre-order, each place once. At every
moment, what later calls hand out are the pre-orders of the trees on the stack,
from its top to its bottom. Once all nodes have been handed out, no call finds
another one.
-/
namespace DeclTree

namespace Cursor

/-- The nodes still to come are the pre-orders of the pending trees. -/
theorem toList_eq_preorderAll (c : Cursor) : c.toList = Node.preorderAll c.pending := by
  fun_induction toList c with
  | case1 c h => rw [next?_eq_none h, Node.preorderAll_nil]
  | case2 c n c' h ih =>
    -- What is pending after the step: the children of the node handed out, then the rest.
    obtain ⟨rest, hc, hc'⟩ := next?_eq_some h
    rw [ih, hc, hc', Node.preorderAll_append, Node.preorderAll_cons, Node.preorder_eq, List.cons_append]

/-! ## Call after call -/

/-- The place that a call of `next?` leaves behind. A call that finds no node
changes nothing. -/
def advance (c : Cursor) : Cursor :=
  match c.next? with
  | none => c
  | some (_, c') => c'

/-- The place after so many calls. -/
def after (c : Cursor) : Nat → Cursor
  | 0 => c
  | k + 1 => c.advance.after k

/-- What the call hands out that comes after so many others. -/
def call? (c : Cursor) (k : Nat) : Option Node := (c.after k).next?.map (·.1)

/-- One call hands out the first of the nodes still to come. -/
theorem head?_preorderAll (c : Cursor) : (Node.preorderAll c.pending).head? = c.next?.map (·.1) := by
  cases h : c.next? with
  | none => rw [next?_eq_none h, Node.preorderAll_nil]; rfl
  | some step =>
    obtain ⟨n, c'⟩ := step
    obtain ⟨rest, hc, -⟩ := next?_eq_some h
    rw [hc, Node.preorderAll_cons, Node.preorder_eq]
    rfl

/-- One call leaves the others to come. -/
theorem preorderAll_advance (c : Cursor) :
    Node.preorderAll c.advance.pending = (Node.preorderAll c.pending).drop 1 := by
  unfold advance
  split
  · rename_i h
    rw [next?_eq_none h, Node.preorderAll_nil, List.drop_nil]
  · rename_i n c' h
    obtain ⟨rest, hc, hc'⟩ := next?_eq_some h
    rw [hc, hc', Node.preorderAll_append, Node.preorderAll_cons, Node.preorder_eq, List.cons_append]
    rfl

/-- After so many calls, as many of the nodes are no longer to come. -/
theorem preorderAll_after (c : Cursor) (k : Nat) :
    Node.preorderAll (c.after k).pending = (Node.preorderAll c.pending).drop k := by
  induction k generalizing c with
  | zero => rfl
  | succ k ih =>
    rw [after, ih, preorderAll_advance, List.drop_drop, Nat.add_comm 1 k]

theorem call?_eq_getElem? (c : Cursor) (k : Nat) : c.call? k = (Node.preorderAll c.pending)[k]? := by
  rw [call?, ← head?_preorderAll, preorderAll_after, List.head?_drop]

end Cursor

namespace Node

/-- A cursor over the nodes under a node hands out their pre-orders. -/
theorem toList_descendants (n : Node) : n.descendants.toList = preorderAll n.children := by
  rw [Cursor.toList_eq_preorderAll, pending_descendants]

/-! ## Main theorem -/

/-- The calls on a cursor over the nodes under a node hand out the pre-orders of
its children, that is every place under the node once and never the node itself.
The call after the last one, and every call after that, finds nothing. Between
two calls, the nodes to come are the pre-orders of the trees on the stack. -/
theorem descendants_in_preorder (n : Node) :
    n.CoversBelow (preorderAll n.children) ∧ n ∉ preorderAll n.children ∧
    n.descendants.toList = preorderAll n.children ∧
    (∀ k, n.descendants.call? k = (preorderAll n.children)[k]?) ∧
    (∀ k, n.descendants.call? k = none ↔ (preorderAll n.children).length ≤ k) ∧
    ∀ k, (n.descendants.after k).pending.flatMap preorder = (preorderAll n.children).drop k ∧
      ∀ j, (n.descendants.after k).call? j = ((n.descendants.after k).pending.flatMap preorder)[j]? := by
  have hcall : ∀ k, n.descendants.call? k = (preorderAll n.children)[k]? := by
    intro k
    rw [Cursor.call?_eq_getElem?, pending_descendants]
  refine ⟨coversBelow_preorderAll n, not_mem_preorderAll_children n, toList_descendants n, hcall, ?_, ?_⟩
  · intro k
    rw [hcall, List.getElem?_eq_none_iff]
  · intro k
    rw [← preorderAll_eq_flatMap]
    refine ⟨?_, fun j => Cursor.call?_eq_getElem? _ j⟩
    rw [Cursor.preorderAll_after, pending_descendants]

end Node

end DeclTree
