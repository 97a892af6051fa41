import DeclTree.Proofs.Reading
import DeclTree.Proofs.Traversal
/-!
# Nesting

Without the numbers of children, the nodes of a tree in pre-order do not tell in
general which stands under which. For a built tree they do. Its nodes come in
four tiers, and tier and scope of a node decide where it belongs: a symbol to the
closest statement before it, a statement of a procedure's scope to the closest
procedure before it, and all else to the module. So a built tree can be put
together again from its flat rows, and two of them are equal as soon as their
rows are.
-/
namespace DeclTree

/-! ## Rows -/

/-- A node without its children. -/
structure Row where
  source : Span
  scope : Scope
  entity : Entity
deriving DecidableEq

namespace Node

/-- The node without its children. -/
def row (n : Node) : Row := ⟨n.source, n.scope, n.entity⟩

/-- The rows of the node and of all that a cursor over it hands out. -/
def rows (n : Node) : List Row := (n :: n.descendants.toList).map row

theorem rows_eq (n : Node) : n.rows = n.preorder.map row := by
  rw [rows, toList_descendants, preorder_eq]

end Node

/-! ## Putting rows together -/

/-- How high up in a built tree the nodes of a kind stand. -/
inductive Tier
  | module
  | procedure
  | statement
  | symbol
deriving DecidableEq

/-- The tier of a kind. -/
def EntityKind.tier : EntityKind → Tier
  | .module => .module
  | .procedure => .procedure
  | .varDeclaration | .constDeclaration => .statement
  | .var | .const => .symbol

/-- Nodes put together from the last rows of a list, while the rows that they
belong to are still to come. -/
structure Loose where
  symbols : List Node := []
  statements : List Node := []
  items : List Node := []

/-- The node with this row and these children. -/
def Row.node (r : Row) (children : List Node) : Node :=
  ⟨r.source, r.scope, r.entity, children⟩

/-- Adds the row before the last ones. It takes the loose nodes that belong to
rows of its tier, and is loose itself. -/
def Loose.add (r : Row) (l : Loose) : Loose :=
  match r.entity.kind.tier with
  | .symbol => { l with symbols := r.node [] :: l.symbols }
  | .statement =>
    if r.scope.isProcedure then { l with symbols := [], statements := r.node l.symbols :: l.statements }
    else { l with symbols := [], items := r.node l.symbols :: l.items }
  | .procedure => { l with statements := [], items := r.node l.statements :: l.items }
  | .module => l

/-- The tree with these rows, the first of which is the root's. -/
def Row.rebuild : List Row → Option Node
  | [] => none
  | r :: rs => some (r.node (rs.foldr Loose.add {}).items)

/-! ## How built trees are nested -/

namespace Node

/-- A symbol has nothing under it. -/
structure IsSymbol (n : Node) : Prop where
  tier : n.kind.tier = .symbol
  leaf : n.children = []

/-- A statement has symbols under it. Its scope tells whether it stands inside a
procedure. -/
structure IsStatement (inside : Bool) (n : Node) : Prop where
  tier : n.kind.tier = .statement
  scope : n.scope.isProcedure = inside
  symbols : ∀ c ∈ n.children, c.IsSymbol

/-- A procedure has statements under it. -/
structure IsProcedure (n : Node) : Prop where
  tier : n.kind.tier = .procedure
  body : ∀ c ∈ n.children, c.IsStatement true

/-- A module has statements and procedures under it. -/
structure IsModule (n : Node) : Prop where
  tier : n.kind.tier = .module
  items : ∀ c ∈ n.children, c.IsStatement false ∨ c.IsProcedure

end Node

namespace Source
variable {settings : Settings} {n : Node}

theorem isStatement_of_declare {d : Declaration} {scope : Scope} (h : d.declare scope settings = .ok n) :
    n.IsStatement scope.isProcedure := by
  match d with
  | .variables s =>
    obtain ⟨children, hc, rfl⟩ := VariableStatement.declare_eq_ok.1 h
    refine ⟨rfl, rfl, forall_of_forall₂ hc ?_⟩
    intro e c he
    obtain ⟨_, _, _, -, -, -, rfl⟩ := VariableEntry.declare_eq_ok.1 he
    exact ⟨rfl, rfl⟩
  | .constants s =>
    obtain ⟨children, hc, rfl⟩ := ConstantStatement.declare_eq_ok.1 h
    refine ⟨rfl, rfl, forall_of_forall₂ hc ?_⟩
    intro e c he
    obtain ⟨_, _, _, _, -, -, -, -, rfl⟩ := ConstantEntry.declare_eq_ok.1 he
    exact ⟨rfl, rfl⟩

theorem isProcedure_of_declare {p : Procedure} {scope : Scope} (h : p.declare scope settings = .ok n) :
    n.IsProcedure := by
  obtain ⟨_, _, _, children, -, -, -, hc, rfl⟩ := Procedure.declare_eq_ok.1 h
  refine ⟨rfl, forall_of_forall₂ hc ?_⟩
  intro d c hd
  exact isStatement_of_declare hd

theorem isModule_of_declare {m : Module} (h : m.declare settings = .ok n) : n.IsModule := by
  obtain ⟨children, hc, rfl⟩ := Module.declare_eq_ok.1 h
  refine ⟨rfl, forall_of_forall₂ hc ?_⟩
  intro item c hi
  match item with
  | .declaration d => exact .inl (isStatement_of_declare hi)
  | .procedure p => exact .inr (isProcedure_of_declare hi)

end Source

/-! ## Built trees can be put together again -/

section Rebuild
variable {n : Node} {ns statements items : List Node}

theorem Node.node_row (n : Node) : n.row.node n.children = n := by
  cases n; rfl

/-- A symbol's row makes the symbol. -/
theorem Loose.add_symbol (h : n.IsSymbol) :
    Loose.add n.row ⟨ns, statements, items⟩ = ⟨n :: ns, statements, items⟩ := by
  have ht : n.row.entity.kind.tier = .symbol := h.tier
  have hn : n.row.node [] = n := by rw [← h.leaf, Node.node_row]
  simp only [Loose.add, ht, hn]

/-- A statement's row makes the statement from its symbols, loose among those of
its place. -/
theorem Loose.add_statement {inside : Bool} (h : n.IsStatement inside) :
    Loose.add n.row ⟨n.children, statements, items⟩ =
      if inside then ⟨[], n :: statements, items⟩ else ⟨[], statements, n :: items⟩ := by
  have ht : n.row.entity.kind.tier = .statement := h.tier
  have hs : n.row.scope.isProcedure = inside := h.scope
  simp only [Loose.add, ht, hs, Node.node_row]

/-- A procedure's row makes the procedure from its statements. -/
theorem Loose.add_procedure (h : n.IsProcedure) :
    Loose.add n.row ⟨[], n.children, items⟩ = ⟨[], [], n :: items⟩ := by
  have ht : n.row.entity.kind.tier = .procedure := h.tier
  simp only [Loose.add, ht, Node.node_row]

/-- The last rows come first. So when the row of a node comes, all that stands
under the node has been put together, and nothing else is loose in that tier. -/
theorem foldr_symbols (h : ∀ c ∈ ns, c.IsSymbol) :
    ((Node.preorderAll ns).map Node.row).foldr Loose.add ⟨[], statements, items⟩ = ⟨ns, statements, items⟩ := by
  induction ns with
  | nil => rfl
  | cons c ns ih =>
    obtain ⟨hc, hns⟩ := List.forall_mem_cons.1 h
    rw [Node.preorderAll_cons, List.map_append, List.foldr_append, ih hns, Node.preorder_eq, hc.leaf,
      Node.preorderAll_nil]
    exact Loose.add_symbol hc

theorem foldr_statement {inside : Bool} (h : n.IsStatement inside) :
    (n.preorder.map Node.row).foldr Loose.add ⟨[], statements, items⟩ =
      if inside then ⟨[], n :: statements, items⟩ else ⟨[], statements, n :: items⟩ := by
  rw [Node.preorder_eq, List.map_cons, List.foldr_cons, foldr_symbols h.symbols, Loose.add_statement h]

theorem foldr_statements (h : ∀ c ∈ ns, c.IsStatement true) :
    ((Node.preorderAll ns).map Node.row).foldr Loose.add ⟨[], [], items⟩ = ⟨[], ns, items⟩ := by
  induction ns with
  | nil => rfl
  | cons c ns ih =>
    obtain ⟨hc, hns⟩ := List.forall_mem_cons.1 h
    rw [Node.preorderAll_cons, List.map_append, List.foldr_append, ih hns, foldr_statement hc, if_pos rfl]

theorem foldr_procedure (h : n.IsProcedure) :
    (n.preorder.map Node.row).foldr Loose.add ⟨[], [], items⟩ = ⟨[], [], n :: items⟩ := by
  rw [Node.preorder_eq, List.map_cons, List.foldr_cons, foldr_statements h.body, Loose.add_procedure h]

theorem foldr_items (h : ∀ c ∈ ns, c.IsStatement false ∨ c.IsProcedure) :
    ((Node.preorderAll ns).map Node.row).foldr Loose.add {} = ⟨[], [], ns⟩ := by
  induction ns with
  | nil => rfl
  | cons c ns ih =>
    obtain ⟨hc, hns⟩ := List.forall_mem_cons.1 h
    rw [Node.preorderAll_cons, List.map_append, List.foldr_append, ih hns]
    rcases hc with hc | hc
    · rw [foldr_statement hc]
      rfl
    · exact foldr_procedure hc

theorem rebuild_rows (h : n.IsModule) : Row.rebuild n.rows = some n := by
  rw [Node.rows_eq, Node.preorder_eq, List.map_cons, Row.rebuild, foldr_items h.items, Node.node_row]

end Rebuild

/-! ## Where a node of a built tree belongs -/

/-- The rule for what a place stands under, between which and the place itself
stand only these others. -/
def BelongsTo (x parent : List Nat × Node) (between : List (List Nat × Node)) : Prop :=
  match x.2.kind.tier with
  | .symbol => parent.2.kind.tier = .statement ∧ ∀ y ∈ between, y.2.kind.tier ≠ .statement
  | .statement =>
    if x.2.scope.isProcedure then
      parent.2.kind.tier = .procedure ∧ ∀ y ∈ between, y.2.kind.tier ≠ .procedure
    else parent.1 = []
  | .procedure => parent.1 = []
  | .module => False

section Belonging
variable {x parent : List Nat × Node} {between : List (List Nat × Node)}

theorem Node.IsSymbol.eq_of_mem_preorder {n c : Node} (hc : c.IsSymbol) (h : n ∈ c.preorder) : n = c := by
  rw [Node.preorder_eq, hc.leaf, Node.preorderAll_nil] at h
  exact List.mem_singleton.1 h

theorem Node.IsStatement.mem_preorder {n c : Node} {inside : Bool} (hc : c.IsStatement inside) (h : n ∈ c.preorder) :
    n = c ∨ n.IsSymbol := by
  rw [Node.preorder_eq, List.mem_cons, Node.preorderAll_eq_flatMap] at h
  rcases h with rfl | h
  · exact .inl rfl
  · obtain ⟨d, hd, hn⟩ := List.mem_flatMap.1 h
    rw [(hc.symbols d hd).eq_of_mem_preorder hn]
    exact .inr (hc.symbols d hd)

/-- Under the root of a built tree there are no modules. -/
theorem Node.IsModule.mem_preorderAll {root n : Node} (h : root.IsModule) (hn : n ∈ Node.preorderAll root.children) :
    n.IsProcedure ∨ (∃ inside, n.IsStatement inside) ∨ n.IsSymbol := by
  rw [Node.preorderAll_eq_flatMap] at hn
  obtain ⟨c, hc, hn⟩ := List.mem_flatMap.1 hn
  rcases h.items c hc with hs | hp
  · rcases hs.mem_preorder hn with rfl | hn
    · exact .inr (.inl ⟨_, hs⟩)
    · exact .inr (.inr hn)
  · rw [Node.preorder_eq, List.mem_cons, Node.preorderAll_eq_flatMap] at hn
    rcases hn with rfl | hn
    · exact .inl hp
    · obtain ⟨d, hd, hn⟩ := List.mem_flatMap.1 hn
      rcases (hp.body d hd).mem_preorder hn with rfl | hn
      · exact .inr (.inl ⟨_, hp.body n hd⟩)
      · exact .inr (.inr hn)

theorem belongsTo_statement {inside : Bool} (h : parent.2.IsStatement inside) (hx : x.2 ∈ parent.2.children)
    (hb : ∀ y ∈ between, ∃ c ∈ parent.2.children, y.2 ∈ c.preorder) : BelongsTo x parent between := by
  rw [BelongsTo, (h.symbols x.2 hx).tier]
  refine ⟨h.tier, ?_⟩
  intro y hy he
  obtain ⟨c, hc, hyc⟩ := hb y hy
  rw [(h.symbols c hc).eq_of_mem_preorder hyc, (h.symbols c hc).tier] at he
  cases he

theorem belongsTo_procedure (h : parent.2.IsProcedure) (hx : x.2 ∈ parent.2.children)
    (hb : ∀ y ∈ between, ∃ c ∈ parent.2.children, y.2 ∈ c.preorder) : BelongsTo x parent between := by
  rw [BelongsTo, (h.body x.2 hx).tier]
  refine (if_pos (h.body x.2 hx).scope).mpr ⟨h.tier, ?_⟩
  intro y hy he
  obtain ⟨c, hc, hyc⟩ := hb y hy
  rcases (h.body c hc).mem_preorder hyc with hyc | hyc
  · rw [hyc, (h.body c hc).tier] at he
    cases he
  · rw [hyc.tier] at he
    cases he

theorem belongsTo_module (h : parent.2.IsModule) (hp : parent.1 = []) (hx : x.2 ∈ parent.2.children) :
    BelongsTo x parent between := by
  rcases h.items x.2 hx with hs | hc
  · rw [BelongsTo, hs.tier]
    simpa [hs.scope] using hp
  · rw [BelongsTo, hc.tier]
    exact hp

/-- In a built tree every place but the root has its parent before it, where the
rule says. -/
theorem exists_belongsTo {root : Node} (h : root.IsModule) {front after : List (List Nat × Node)}
    (hx : root.addressed = front ++ x :: after) (hf : front ≠ []) :
    ∃ before parent between, front = before ++ parent :: between ∧ (∃ i, x.1 = parent.1 ++ [i]) ∧
      BelongsTo x parent between := by
  obtain ⟨before, parent, between, i, rfl, hi, hc, hb⟩ := Node.exists_parent hx hf
  refine ⟨before, parent, between, rfl, ⟨i, hi⟩, ?_⟩
  have hchild := List.mem_of_getElem? hc
  have hbetween : ∀ y ∈ between, ∃ c ∈ parent.2.children, y.2 ∈ c.preorder := by
    intro y hy
    obtain ⟨j, c, -, hj, hyc⟩ := hb y hy
    exact ⟨c, List.mem_of_getElem? hj, hyc⟩
  have hparent : parent ∈ root.addressed := by simp [hx]
  rw [Node.addressed_eq] at hparent
  rcases List.mem_cons.1 hparent with rfl | hparent
  · exact belongsTo_module h rfl hchild
  · have hbelow : parent.2 ∈ Node.preorderAll root.children := by
      rw [← Node.map_snd_addressedFrom_children]
      exact List.mem_map_of_mem hparent
    rcases h.mem_preorderAll hbelow with hp | ⟨inside, hs⟩ | hs
    · exact belongsTo_procedure hp hchild hbetween
    · exact belongsTo_statement hs hchild hbetween
    · rw [hs.leaf] at hchild
      cases hchild

end Belonging

/-! ## Main theorem -/

/-- Two built trees are equal exactly if their flat rows are. A built tree can be
put together from its rows, since each node belongs to a node before it that its
tier and its scope decide. -/
theorem Source.tree_eq_iff_rows {m m' : Module} {settings settings' : Settings} {root root' : Node}
    (h : m.declare settings = .ok root) (h' : m'.declare settings' = .ok root') :
    (root = root' ↔ root.rows = root'.rows) ∧ Row.rebuild root.rows = some root ∧
    ∀ front x after, root.addressed = front ++ x :: after → front ≠ [] →
      ∃ before parent between, front = before ++ parent :: between ∧ (∃ i, x.1 = parent.1 ++ [i]) ∧
        BelongsTo x parent between := by
  have hroot := rebuild_rows (isModule_of_declare h)
  have hroot' := rebuild_rows (isModule_of_declare h')
  refine ⟨⟨congrArg Node.rows, ?_⟩, hroot, ?_⟩
  · intro he
    rw [he, hroot'] at hroot
    exact (Option.some.inj hroot).symm
  · intro front x after hx hf
    exact exists_belongsTo (isModule_of_declare h) hx hf

/-- A module with two procedures of one name. -/
def Source.namesakes (first second : List Declaration) : Module where
  name := "Jobs"
  items := [
    .procedure { kind := .sub, identifier := some ⟨⟨4, 7⟩, "Run"⟩, body := first },
    .procedure { kind := .sub, identifier := some ⟨⟨4, 7⟩, "Run"⟩, body := second }]

/-- A statement has the same row in either procedure, so the two modules have
the same rows, but in another order. -/
theorem Source.tree_eq_iff_rows_of_namesakes : ∃ root root',
    (namesakes [.variables {}] []).declare {} = .ok root ∧ (namesakes [] [.variables {}]).declare {} = .ok root' ∧
    root.rows.Perm root'.rows ∧ root.rows ≠ root'.rows ∧ Row.rebuild root.rows = some root := by
  obtain ⟨root, h, root', h', hperm, hne⟩ : ∃ root, (namesakes [.variables {}] []).declare {} = .ok root ∧
      ∃ root', (namesakes [] [.variables {}]).declare {} = .ok root' ∧
      (root.preorder.map Node.row).Perm (root'.preorder.map Node.row) ∧ root ≠ root' :=
    ⟨_, rfl, _, rfl, by decide, by decide⟩
  obtain ⟨hiff, hroot, -⟩ := tree_eq_iff_rows h h'
  rw [← Node.rows_eq, ← Node.rows_eq] at hperm
  exact ⟨root, root', h, h', hperm, fun he => hne (hiff.2 he), hroot⟩

end DeclTree
