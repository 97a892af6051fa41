import DeclTree.Proofs.Outline
/-!
# Where a node stands

The place of a node is the procedure that it stands inside, if there is one. It
can be told from the tree alone, by walking down from the root, and from the
source alone, by its outline. `surveyed_module` sums up a built tree: going
down the tree and the source side by side, every node has the place of its part
of the source and is what that part is read as in the scope of the place. What
is shown of all nodes of built trees is read off it.
-/
namespace DeclTree

/-! ## Places in a tree -/

namespace Node

mutual

/-- The node and all nodes under it in pre-order, each with the name of the
procedure that it stands inside. The node itself stands inside `within`. -/
def located (within : Option String) : Node → List (Option String × Node)
  | ⟨s, c, e, ns⟩ =>
    (within, ⟨s, c, e, ns⟩) :: locatedAll ((e.procedure?.map (·.name)).or within) ns

/-- What is located in several trees, one after the other. Their roots stand
inside `within`. -/
def locatedAll (within : Option String) : List Node → List (Option String × Node)
  | [] => []
  | n :: ns => n.located within ++ locatedAll within ns

end

theorem located_eq (within : Option String) (n : Node) :
    n.located within =
      (within, n) :: locatedAll ((n.entity.procedure?.map (·.name)).or within) n.children := by
  cases n; rw [located]

@[simp] theorem locatedAll_nil (within : Option String) : locatedAll within [] = [] := by
  rw [locatedAll]

@[simp] theorem locatedAll_cons (within : Option String) (n : Node) (ns : List Node) :
    locatedAll within (n :: ns) = n.located within ++ locatedAll within ns := by rw [locatedAll]

theorem locatedAll_eq_flatMap (within : Option String) (ns : List Node) :
    locatedAll within ns = ns.flatMap (located within) := by
  induction ns with
  | nil => simp
  | cons n ns ih => simp [ih]

/-- Every node of a tree has a place, and the order is the pre-order. -/
theorem map_snd_located (n : Node) : ∀ within, (n.located within).map (·.2) = n.preorder := by
  induction n using Node.induction with
  | step n ih =>
    intro within
    rw [located_eq, List.map_cons, locatedAll_eq_flatMap, List.map_flatMap, preorder_eq,
      preorderAll_eq_flatMap, List.flatMap_congr fun c hc => ih c hc _]

theorem map_snd_locatedAll (within : Option String) (ns : List Node) :
    (locatedAll within ns).map (·.2) = preorderAll ns := by
  rw [locatedAll_eq_flatMap, List.map_flatMap, preorderAll_eq_flatMap]
  exact List.flatMap_congr fun n _ => map_snd_located n within

end Node

/-- The scope of what is declared at a place of a module. -/
def Scope.inside (module : String) : Option String → Scope
  | none => .module module
  | some p => .procedure module p

namespace Source

/-! ## Places in a source -/

/-- An item's outline, each part with the name of the procedure whose body it
is in. -/
def Item.survey : Item → List (Option String × Construct)
  | .declaration d => d.outline.map (none, ·)
  | .procedure p => (none, .procedure p) ::
    p.body.flatMap fun d => d.outline.map (p.identifier.map (·.text), ·)

/-- A module's outline, each part with the name of the procedure whose body it
is in. -/
def Module.survey (m : Module) : List (Option String × Construct) := m.items.flatMap Item.survey

/-- Without the places, a survey is the outline. -/
theorem map_snd_survey (m : Module) : m.survey.map (·.2) = m.outline := by
  have hd : ∀ (within : Option String) (d : Declaration), (d.outline.map (within, ·)).map (·.2) = d.outline := by
    intro within d
    rw [List.map_map]
    exact List.map_id _
  rw [Module.survey, Module.outline, List.map_flatMap]
  refine List.flatMap_congr fun item _ => ?_
  match item with
  | .declaration d => exact hd none d
  | .procedure p =>
    rw [Item.survey, Item.outline, List.map_cons, List.map_flatMap]
    exact congrArg _ (List.flatMap_congr fun d _ => hd _ d)

/-! ## Each node beside its part of the source -/

/-- At this place of the module, the part of the source is read as the node. -/
def Construct.ReadAs (module : String) (settings : Settings) (within : Option String) : Construct → Node → Prop
  | .varStatement s, n => s.declare (.inside module within) settings = .ok n
  | .var e, n => ∃ s : VariableStatement,
    e ∈ s.entries ∧ e.declare (s.placement (.inside module within) settings) = .ok n
  | .constStatement s, n => s.declare (.inside module within) settings = .ok n
  | .const e, n => ∃ s : ConstantStatement,
    e ∈ s.entries ∧ e.declare (s.placement (.inside module within) settings) = .ok n
  | .procedure p, n => within = none ∧ p.declare (.inside module within) settings = .ok n

/-- The nodes stand where these parts of the source stand, and are what they
are read as. -/
def Surveyed (module : String) (settings : Settings) :
    List (Option String × Construct) → List (Option String × Node) → Prop :=
  List.Forall₂ fun part node => part.1 = node.1 ∧ part.2.ReadAs module settings node.1 node.2

section Surveys
variable {module : String} {settings : Settings} {within : Option String} {n : Node}

theorem surveyed_leaf {part : Construct} (h : part.ReadAs module settings within n) (hc : n.children = [])
    (hp : n.entity.procedure? = none) : Surveyed module settings [(within, part)] (n.located within) := by
  rw [Node.located_eq, hc, hp, Node.locatedAll_nil]
  exact .cons ⟨rfl, h⟩ .nil

theorem surveyed_all {α : Type} {R : α → Node → Prop} {survey : α → List (Option String × Construct)}
    (each : ∀ a n, R a n → Surveyed module settings (survey a) (n.located within)) {as : List α} {ns : List Node}
    (h : List.Forall₂ R as ns) : Surveyed module settings (as.flatMap survey) (Node.locatedAll within ns) := by
  rw [Node.locatedAll_eq_flatMap]
  exact List.rel_flatMap h each

theorem surveyed_declaration {d : Declaration} (h : d.declare (.inside module within) settings = .ok n) :
    Surveyed module settings (d.outline.map (within, ·)) (n.located within) := by
  match d with
  | .variables s =>
    have hs : s.declare (.inside module within) settings = .ok n := h
    obtain ⟨children, hc, rfl⟩ := VariableStatement.declare_eq_ok.1 hs
    rw [Node.located_eq, Declaration.outline, List.map_cons, List.map_map, List.map_eq_flatMap]
    refine .cons ⟨rfl, hs⟩ (surveyed_all ?_ ((List.forall₂_and_left _ _).2 ⟨fun e he => he, hc⟩))
    rintro e n ⟨he, hn⟩
    have hleaf := hn
    obtain ⟨_, _, _, -, -, -, rfl⟩ := VariableEntry.declare_eq_ok.1 hleaf
    exact surveyed_leaf ⟨s, he, hn⟩ rfl rfl
  | .constants s =>
    have hs : s.declare (.inside module within) settings = .ok n := h
    obtain ⟨children, hc, rfl⟩ := ConstantStatement.declare_eq_ok.1 hs
    rw [Node.located_eq, Declaration.outline, List.map_cons, List.map_map, List.map_eq_flatMap]
    refine .cons ⟨rfl, hs⟩ (surveyed_all ?_ ((List.forall₂_and_left _ _).2 ⟨fun e he => he, hc⟩))
    rintro e n ⟨he, hn⟩
    have hleaf := hn
    obtain ⟨_, _, _, _, -, -, -, -, rfl⟩ := ConstantEntry.declare_eq_ok.1 hleaf
    exact surveyed_leaf ⟨s, he, hn⟩ rfl rfl

theorem surveyed_item {item : Item} (h : item.declare (.module module) settings = .ok n) :
    Surveyed module settings item.survey (n.located none) := by
  match item with
  | .declaration d => exact surveyed_declaration h
  | .procedure p =>
    have hp : p.declare (.module module) settings = .ok n := h
    obtain ⟨name, _, _, children, hname, -, -, hc, rfl⟩ := Procedure.declare_eq_ok.1 hp
    obtain ⟨x, hx, -, rfl⟩ := declaredName_eq_ok.1 hname
    rw [Node.located_eq, Item.survey, hx]
    refine .cons ⟨rfl, rfl, hp⟩ (surveyed_all ?_ hc)
    intro d n hd
    exact surveyed_declaration hd

theorem surveyed_module {m : Module} {root : Node} (h : m.declare settings = .ok root) :
    Surveyed m.name settings m.survey (Node.locatedAll none root.children) := by
  obtain ⟨children, hc, rfl⟩ := Module.declare_eq_ok.1 h
  exact surveyed_all (fun item n hi => surveyed_item hi) hc

/-- What holds of whatever a part of the source is read as at a place holds of
every node under the root of a built tree. -/
theorem forall_located {P : Option String → Node → Prop} {m : Module} {root : Node}
    (h : m.declare settings = .ok root)
    (hP : ∀ part within n, Construct.ReadAs m.name settings within part n → P within n) :
    ∀ x ∈ Node.locatedAll none root.children, P x.1 x.2 :=
  forall_of_forall₂ (surveyed_module h) fun part _ hx => hP part.2 _ _ hx.2

end Surveys

end Source

end DeclTree
