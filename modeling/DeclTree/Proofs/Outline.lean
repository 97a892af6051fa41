import DeclTree.Proofs.Reading
import DeclTree.Proofs.Traversal
/-!
# A tree and its source, side by side

The outline of a module lists what its source declares, in the order of the
text: every statement before its entries, every procedure before the statements
of its body. The nodes under a module's root, in pre-order, stand one for one
beside that list and repeat what the source has there. Nothing is lost, nothing
comes twice and nothing changes its place.
-/
namespace DeclTree.Source

/-! ## The outline of a source -/

/-- A part of the source that has a node of its own. -/
inductive Construct
  | varStatement (statement : VariableStatement)
  | var (entry : VariableEntry)
  | constStatement (statement : ConstantStatement)
  | const (entry : ConstantEntry)
  | procedure (procedure : Procedure)

/-- A statement, then its entries. -/
def Declaration.outline : Declaration → List Construct
  | .variables s => .varStatement s :: s.entries.map .var
  | .constants s => .constStatement s :: s.entries.map .const

/-- A procedure, then the statements of its body. -/
def Item.outline : Item → List Construct
  | .declaration d => d.outline
  | .procedure p => .procedure p :: p.body.flatMap Declaration.outline

/-- The items of a module, one after the other. -/
def Module.outline (m : Module) : List Construct := m.items.flatMap Item.outline

/-- The node stands for this part of the source and repeats it: its place, the
number of parts under it and what is written there. -/
def Construct.MirroredBy : Construct → Node → Prop
  | .varStatement s, n => n.source = s.span ∧ n.children.length = s.entries.length ∧
    ∃ d, n.entity = .varDeclaration d ∧ d.rawVisibility = s.visibility.map (·.text) ∧ d.withEvents = s.withEvents
  | .var e, n => n.source = e.span ∧ n.children = [] ∧
    ∃ v x, n.entity = .var v ∧ e.identifier = some x ∧ v.name = x.text ∧
      (v.isArray ↔ e.subscripts ≠ none) ∧ (v.isNew ↔ ∃ clause, e.asClause = some clause ∧ clause.isNew)
  | .constStatement s, n => n.source = s.span ∧ n.children.length = s.entries.length ∧
    ∃ d, n.entity = .constDeclaration d ∧ d.rawVisibility = s.visibility.map (·.text)
  | .const e, n => n.source = e.span ∧ n.children = [] ∧
    ∃ c x y, n.entity = .const c ∧ e.identifier = some x ∧ c.name = x.text ∧ e.value = some y ∧ c.value = y.text
  | .procedure p, n => n.source = p.span ∧ n.children.length = p.body.length ∧
    ∃ q x, n.entity = .procedure q ∧ p.identifier = some x ∧ q.name = x.text ∧
      q.kind = p.kind ∧ q.isStatic = p.isStatic

/-- The nodes stand for these parts of the source, one for one and in order. -/
def Mirrored : List Construct → List Node → Prop := List.Forall₂ Construct.MirroredBy

/-! ## Each reading mirrors its source -/

theorem mirrored_var {e : VariableEntry} {place : Placement} {n : Node} (h : e.declare place = .ok n) :
    Mirrored [.var e] n.preorder := by
  obtain ⟨name, type, a, hname, -, -, rfl⟩ := VariableEntry.declare_eq_ok.1 h
  obtain ⟨x, hx, -, rfl⟩ := declaredName_eq_ok.1 hname
  rw [Node.preorder_eq, Node.preorderAll_nil]
  refine .cons ⟨rfl, rfl, _, x, rfl, hx, rfl, ?_, ?_⟩ .nil
  · simp [Option.isSome_iff_ne_none]
  · cases e.asClause <;> simp

theorem mirrored_const {e : ConstantEntry} {place : Placement} {n : Node} (h : e.declare place = .ok n) :
    Mirrored [.const e] n.preorder := by
  obtain ⟨name, y, type, a, hname, hy, -, -, rfl⟩ := ConstantEntry.declare_eq_ok.1 h
  obtain ⟨x, hx, -, rfl⟩ := declaredName_eq_ok.1 hname
  rw [Node.preorder_eq, Node.preorderAll_nil]
  exact .cons ⟨rfl, rfl, _, x, y, rfl, hx, rfl, hy, rfl⟩ .nil

/-- Lists read member by member are mirrored if each member is. -/
theorem mirrored_all {α : Type} {read : α → Except Fault Node} {outline : α → List Construct}
    (each : ∀ a n, read a = .ok n → Mirrored (outline a) n.preorder) {as : List α} {ns : List Node}
    (h : List.Forall₂ (fun a n => read a = .ok n) as ns) :
    Mirrored (as.flatMap outline) (Node.preorderAll ns) := by
  rw [Node.preorderAll_eq_flatMap]
  exact List.rel_flatMap h each

theorem mirrored_declaration {d : Declaration} {scope : Scope} {settings : Settings} {n : Node}
    (h : d.declare scope settings = .ok n) : Mirrored d.outline n.preorder := by
  match d with
  | .variables s =>
    obtain ⟨children, hc, rfl⟩ := VariableStatement.declare_eq_ok.1 h
    rw [Node.preorder_eq, Declaration.outline, List.map_eq_flatMap]
    refine .cons ⟨rfl, hc.length_eq.symm, _, rfl, rfl, rfl⟩ ?_
    exact mirrored_all (fun e n => mirrored_var) hc
  | .constants s =>
    obtain ⟨children, hc, rfl⟩ := ConstantStatement.declare_eq_ok.1 h
    rw [Node.preorder_eq, Declaration.outline, List.map_eq_flatMap]
    refine .cons ⟨rfl, hc.length_eq.symm, _, rfl, rfl⟩ ?_
    exact mirrored_all (fun e n => mirrored_const) hc

theorem mirrored_item {item : Item} {scope : Scope} {settings : Settings} {n : Node}
    (h : item.declare scope settings = .ok n) : Mirrored item.outline n.preorder := by
  match item with
  | .declaration d => exact mirrored_declaration h
  | .procedure p =>
    obtain ⟨name, a, type, children, hname, -, -, hc, rfl⟩ := Procedure.declare_eq_ok.1 h
    obtain ⟨x, hx, -, rfl⟩ := declaredName_eq_ok.1 hname
    rw [Node.preorder_eq, Item.outline]
    refine .cons ⟨rfl, hc.length_eq.symm, _, x, rfl, hx, rfl, rfl, rfl⟩ ?_
    exact mirrored_all (fun d n => mirrored_declaration) hc

/-! ## Main theorem -/

/-- The root of a built tree is the module's, and the nodes under it, as a
cursor hands them out, mirror the outline of the module. -/
theorem descendants_mirror_outline {m : Module} {settings : Settings} {root : Node}
    (h : m.declare settings = .ok root) :
    root.entity = .module m.name ∧ root.source = m.span ∧ root.children.length = m.items.length ∧
      Mirrored m.outline root.descendants.toList := by
  obtain ⟨children, hc, rfl⟩ := Module.declare_eq_ok.1 h
  refine ⟨rfl, rfl, hc.length_eq.symm, ?_⟩
  rw [Node.toList_descendants]
  exact mirrored_all (fun item n => mirrored_item) hc

theorem descendants_mirror_outline_of_ledger : ∃ root, ledger.declare {} = .ok root ∧
    root.entity = .module "Ledger.Main" ∧ root.source = ⟨0, 90⟩ ∧ root.children.length = 2 ∧
    Mirrored ledger.outline root.descendants.toList := by
  obtain ⟨root, h⟩ : ∃ root, ledger.declare {} = .ok root := ⟨_, rfl⟩
  exact ⟨root, h, descendants_mirror_outline h⟩

end DeclTree.Source
