import DeclTree.Scope
import DeclTree.Tree.Entity
/-!
# Declaration trees

A node is an entity with the place it was declared at, the scope it belongs to
and the nodes declared under it, in the order of the source. Nothing ties a
node to its children: a tree put together by hand may have any shape.
-/
namespace DeclTree

/-- A node of a declaration tree. -/
structure Node where
  source : Span
  scope : Scope
  entity : Entity
  children : List Node := []

namespace Node

instance : Inhabited Node := ⟨default, default, default, []⟩

/-- A node with one more child, after those it has. -/
def push (n c : Node) : Node := { n with children := n.children ++ [c] }

/-- The kind of the node's entity. -/
def kind (n : Node) : EntityKind := n.entity.kind

/-- The name of the node's entity, if it has one. -/
def name? (n : Node) : Option String := n.entity.name?

/-- A property holds of every node if it holds of a node whenever it holds of
the node's children. -/
@[elab_as_elim]
theorem induction {motive : Node → Prop}
    (step : ∀ n, (∀ c ∈ n.children, motive c) → motive n) (n : Node) : motive n :=
  @Node.rec motive (fun ns => ∀ c ∈ ns, motive c)
    (fun source scope entity children ih => step ⟨source, scope, entity, children⟩ ih)
    (fun _ h => nomatch h)
    (fun _ _ hd tl c h => (List.mem_cons.1 h).elim (fun e => e ▸ hd) (tl c)) n

/-! ## Equality is decidable -/

mutual

/-- Decides equality of nodes. -/
def decEq : (a b : Node) → Decidable (a = b)
  | ⟨s, c, e, ns⟩, ⟨s', c', e', ns'⟩ =>
    if h : s = s' ∧ c = c' ∧ e = e' then
      match decEqList ns ns' with
      | isTrue hn => isTrue (by obtain ⟨rfl, rfl, rfl⟩ := h; rw [hn])
      | isFalse hn => isFalse fun heq => hn (congrArg children heq)
    else isFalse fun heq => h (by injection heq; exact ⟨‹_›, ‹_›, ‹_›⟩)

/-- Decides equality of lists of nodes. -/
def decEqList : (as bs : List Node) → Decidable (as = bs)
  | [], [] => isTrue rfl
  | [], _ :: _ => isFalse nofun
  | _ :: _, [] => isFalse nofun
  | a :: as, b :: bs =>
    match decEq a b with
    | isTrue h =>
      match decEqList as bs with
      | isTrue hs => isTrue (by rw [h, hs])
      | isFalse hs => isFalse fun heq => hs (List.cons.inj heq).2
    | isFalse h => isFalse fun heq => h (List.cons.inj heq).1

end

instance : DecidableEq Node := decEq

end Node

end DeclTree
