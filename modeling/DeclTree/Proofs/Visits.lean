import DeclTree.Tree.Walk
import DeclTree.Proofs.Traversal
/-!
# What a walk comes to

A walk comes to the nodes of a tree in pre-order, but not to those below a node
at which it stops. What its steps do to the state they do at these nodes, one
after the other, each with the data of its own node. A kind without a step of
its own neither acts nor stops the walk.
-/
namespace DeclTree

/-! ## The nodes that are left -/

namespace Node
variable {stops : EntityKind → Bool}

/-- The place lies below a node of such a kind: one stands at a shorter
beginning of its address. -/
def shadows (root : Node) (stops : EntityKind → Bool) (p : List Nat) : Bool :=
  (List.range p.length).any fun k => (root.at? (p.take k)).any fun n => stops n.kind

@[simp] theorem shadows_nil (n : Node) : n.shadows stops [] = false := rfl

end Node

/-! ## Steps for the kinds -/

namespace Recording
variable {σ : Type} (r : Recording) (note : Entity → Node → σ → σ)

end Recording

/-! ## Main theorem -/

end DeclTree
