import DeclTree.Tree.Node
/-!
# Walks

A walk acts on the nodes of a tree in turn and carries a state along. At each
node its step decides when, and whether, to descend to the children. A walker
has a step for each kind of node and descends through the kinds it does not
care about.
-/
namespace DeclTree

variable {σ : Type}

/-! ## One step for every node -/

/-- What is done at a node, given the walk over the node's children. -/
abbrev Step (σ : Type) := Node → (descend : σ → σ) → σ → σ

/-- Does nothing but walk over the children. -/
def Step.descend : Step σ := fun _ descend => descend

namespace Node

mutual

/-- Takes the step at the node, from which the walk goes on to its children. -/
def walk (step : Step σ) : Node → σ → σ
  | ⟨s, c, e, ns⟩ => step ⟨s, c, e, ns⟩ (walkAll step ns)

/-- Walks over several trees from left to right. -/
def walkAll (step : Step σ) : List Node → σ → σ
  | [], state => state
  | n :: ns, state => walkAll step ns (walk step n state)

end

@[simp] theorem walkAll_nil (step : Step σ) (state : σ) : walkAll step [] state = state := by
  rw [walkAll]

@[simp] theorem walkAll_cons (step : Step σ) (n : Node) (ns : List Node) (state : σ) :
    walkAll step (n :: ns) state = walkAll step ns (n.walk step state) := by rw [walkAll]

end Node

/-! ## A step for each kind -/

/-- What is done at each kind of node. Through a kind that is left out the walk
descends. -/
structure Walker (σ : Type) where
  module : String → Step σ := fun _ => Step.descend
  procedure : Entity.Procedure → Step σ := fun _ => Step.descend
  varDeclaration : Entity.VariableDeclaration → Step σ := fun _ => Step.descend
  var : Entity.Variable → Step σ := fun _ => Step.descend
  constDeclaration : Entity.ConstantDeclaration → Step σ := fun _ => Step.descend
  const : Entity.Constant → Step σ := fun _ => Step.descend

namespace Walker

/-- The walker's step at a node: that for the kind of its entity. -/
def step (w : Walker σ) : Step σ := fun n =>
  match n.entity with
  | .module name => w.module name n
  | .procedure p => w.procedure p n
  | .varDeclaration d => w.varDeclaration d n
  | .var v => w.var v n
  | .constDeclaration d => w.constDeclaration d n
  | .const c => w.const c n

/-- Sends the walker through a tree. -/
def walk (w : Walker σ) (n : Node) : σ → σ := n.walk w.step

end Walker

/-! ## One step in place of the others -/

/-- A walker that may have a step for nodes of any kind. Then its steps for the
kinds are not taken, since nothing else leads to them. -/
structure Visitor (σ : Type) extends Walker σ where
  node : Step σ := toWalker.step

/-- Sends the visitor through a tree. -/
def Visitor.walk (v : Visitor σ) (n : Node) : σ → σ := n.walk v.node

/-! ## Recording -/

/-- Which kinds of nodes are recorded, and below which of these the walk does
not go on. -/
structure Recording where
  records : EntityKind → Bool
  stops : EntityKind → Bool

namespace Recording
variable (r : Recording) (note : Entity → Node → σ → σ)

/-- What is done where the data of a recorded kind comes with a node: both are
noted, and the walk goes on below unless the kind stops it. A kind that is not
recorded has no step of its own. -/
def hook (e : Entity) : Step σ :=
  if r.records e.kind then fun n descend state =>
    if r.stops e.kind then note e n state else descend (note e n state)
  else Step.descend

/-- Has a step of its own for the recorded kinds only. -/
def noting : Walker σ where
  module name := r.hook note (.module name)
  procedure p := r.hook note (.procedure p)
  varDeclaration d := r.hook note (.varDeclaration d)
  var v := r.hook note (.var v)
  constDeclaration d := r.hook note (.constDeclaration d)
  const c := r.hook note (.const c)

/-- The nodes of the recorded kinds, in the order of the walk. -/
def run (n : Node) : List Node := ((r.noting fun _ n log => log.push n).walk n #[]).toList

/-- Records the node of whatever kind, and descends unless its kind stops the
walk. -/
def step : Step (Array Node) := fun n descend log =>
  if r.stops n.kind then log.push n else descend (log.push n)

/-- The nodes that a walk with one step for every kind records. -/
def runAll (n : Node) : List Node := (n.walk r.step #[]).toList

end Recording

end DeclTree
