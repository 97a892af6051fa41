import DeclTree.Project
import DeclTree.Proofs.Places
import DeclTree.Proofs.Separator
/-!
# The scope of every node

In a built tree a node has the scope of its place: the module's outside
procedures, a procedure's inside it. Since a scope keeps its two names apart,
whatever characters they are made of, scopes are equal exactly where the names
of the modules and the places are, also where their texts coincide.
-/
namespace DeclTree

/-! ## Scopes of places -/

@[simp] theorem Scope.moduleName_inside (module : String) (within : Option String) :
    (Scope.inside module within).moduleName = module := by cases within <;> rfl

@[simp] theorem Scope.procedureName?_inside (module : String) (within : Option String) :
    (Scope.inside module within).procedureName? = within := by cases within <;> rfl

theorem Scope.inside_inj {module module' : String} {within within' : Option String} :
    Scope.inside module within = Scope.inside module' within' ↔ module = module' ∧ within = within' := by
  simp [Scope.ext_iff]

/-- A node at this place of the module has the place's scope. Both names can be
read off it, and off its text at the place of the dot; modules and procedures
stand outside procedures. -/
structure Scoped (module : String) (within : Option String) (n : Node) : Prop where
  scope : n.scope = .inside module within
  moduleName : n.scope.moduleName = module ∧ n.scope.joined.moduleName? = some module
  procedureName : n.scope.procedureName? = within ∧ n.scope.joined.procedureName? = some within
  isProcedure : n.scope.isProcedure = within.isSome ∧ n.scope.joined.separator.isSome = within.isSome
  outside : n.kind = .module ∨ n.kind = .procedure → within = none

theorem Scoped.of_scope {module : String} {within : Option String} {n : Node}
    (hs : n.scope = .inside module within) (ho : n.kind = .module ∨ n.kind = .procedure → within = none) :
    Scoped module within n where
  scope := hs
  moduleName := by simp [hs]
  procedureName := by simp [hs]
  isProcedure := by cases within <;> simp [hs, Scope.inside, Scope.joined]
  outside := ho

namespace Source
variable {m : Module} {settings : Settings} {root : Node}

theorem scoped_of_readAs {part : Construct} {module : String} {within : Option String} {n : Node}
    (h : part.ReadAs module settings within n) : Scoped module within n := by
  match part with
  | .varStatement s =>
    obtain ⟨_, -, rfl⟩ := VariableStatement.declare_eq_ok.1 h
    exact .of_scope rfl (by simp [Node.kind, Entity.kind])
  | .var e =>
    obtain ⟨s, -, he⟩ := h
    obtain ⟨_, _, _, -, -, -, rfl⟩ := VariableEntry.declare_eq_ok.1 he
    exact .of_scope rfl (by simp [Node.kind, Entity.kind])
  | .constStatement s =>
    obtain ⟨_, -, rfl⟩ := ConstantStatement.declare_eq_ok.1 h
    exact .of_scope rfl (by simp [Node.kind, Entity.kind])
  | .const e =>
    obtain ⟨s, -, he⟩ := h
    obtain ⟨_, _, _, _, -, -, -, -, rfl⟩ := ConstantEntry.declare_eq_ok.1 he
    exact .of_scope rfl (by simp [Node.kind, Entity.kind])
  | .procedure p =>
    obtain ⟨rfl, hp⟩ := h
    obtain ⟨_, _, _, _, -, -, -, -, rfl⟩ := Procedure.declare_eq_ok.1 hp
    exact .of_scope rfl fun _ => rfl

/-- Every node of a built tree has the scope of its place. -/
theorem scoped_module (h : m.declare settings = .ok root) : ∀ x ∈ root.located none, Scoped m.name x.1 x.2 := by
  have hbelow := forall_located h fun part within n => scoped_of_readAs
  obtain ⟨children, -, rfl⟩ := Module.declare_eq_ok.1 h
  rw [Node.located_eq]
  exact List.forall_mem_cons.2 ⟨.of_scope rfl fun _ => rfl, hbelow⟩

theorem name_of_declare (h : m.declare settings = .ok root) : root.name? = some m.name := by
  obtain ⟨children, -, rfl⟩ := Module.declare_eq_ok.1 h
  rfl

/-- A project's trees are those of its modules. -/
theorem declare_of_mem_modules {modules : List Module} (h : root ∈ (Project.ofModules modules settings).modules) :
    ∃ m ∈ modules, m.declare settings = .ok root := by
  rw [Project.modules_ofModules] at h
  obtain ⟨m, hm, ho⟩ := List.mem_filterMap.1 h
  refine ⟨m, hm, ?_⟩
  cases hd : m.declare settings with
  | ok tree => rw [hd] at ho; cases ho; rfl
  | error fault => rw [hd] at ho; cases ho

/-- Two nodes of built trees have one scope exactly if their modules have one
name and they stand inside procedures of one name, or both outside of any. -/
theorem scope_eq_iff {m' : Module} {root' : Node} (h : m.declare settings = .ok root)
    (h' : m'.declare settings = .ok root') {x x' : Option String × Node} (hx : x ∈ root.located none)
    (hx' : x' ∈ root'.located none) : x.2.scope = x'.2.scope ↔ root.name? = root'.name? ∧ x.1 = x'.1 := by
  rw [(scoped_module h x hx).scope, (scoped_module h' x' hx').scope, Scope.inside_inj, name_of_declare h,
    name_of_declare h', Option.some.injEq]

end Source

/-- A dot that moves from one name to the other makes another scope. -/
theorem Scope.procedure_ne_of_dot (a b c : String) :
    Scope.procedure a (b ++ "." ++ c) ≠ .procedure (a ++ "." ++ b) c := by
  intro h
  have hlen := congrArg String.length (Scope.procedure.inj h).1
  have hdot : ".".length = 1 := rfl
  simp only [String.length_append] at hlen
  omega

/-! ## Main theorem -/

/-- Every node of a built tree has the scope of its place. Two nodes of a
project have one scope exactly if their modules have one name and their places
are the same; the texts of two scopes may coincide all the same. -/
theorem Source.scopes_follow_places (settings : Settings) :
    (∀ (m : Module) root, m.declare settings = .ok root →
      root.name? = some m.name ∧ (root.located none).map (·.2) = root.preorder ∧
      ∀ x ∈ root.located none, Scoped m.name x.1 x.2) ∧
    (∀ modules, ∀ t ∈ (Project.ofModules modules settings).modules,
      ∀ t' ∈ (Project.ofModules modules settings).modules,
      ∀ x ∈ t.located none, ∀ x' ∈ t'.located none,
        (x.2.scope = x'.2.scope ↔ t.name? = t'.name? ∧ x.1 = x'.1) ∧
        (x.2.scope.joined = x'.2.scope.joined ↔ x.2.scope = x'.2.scope)) ∧
    ∀ a b c, (Scope.procedure a b).text = (Scope.module (a ++ "." ++ b)).text ∧
      Scope.procedure a b ≠ .module (a ++ "." ++ b) ∧
      (Scope.procedure a (b ++ "." ++ c)).text = (Scope.procedure (a ++ "." ++ b) c).text ∧
      Scope.procedure a (b ++ "." ++ c) ≠ .procedure (a ++ "." ++ b) c := by
  refine ⟨fun m root h => ?_, fun modules t ht t' ht' x hx x' hx' => ?_, fun a b c => ?_⟩
  · exact ⟨name_of_declare h, Node.map_snd_located root none, scoped_module h⟩
  · obtain ⟨m, -, h⟩ := declare_of_mem_modules ht
    obtain ⟨m', -, h'⟩ := declare_of_mem_modules ht'
    exact ⟨scope_eq_iff h h' hx hx', Scope.joined_inj⟩
  · exact ⟨rfl, nofun, by simp [Scope.text, String.append_assoc], Scope.procedure_ne_of_dot a b c⟩

/-- A module `A` with a procedure `B.C`, and a module `A.B` with a procedure
`C`. What they declare inside has scopes of one text. -/
def Source.homonyms : List Module :=
  let body : List Declaration := [.variables { entries := [{ identifier := some ⟨⟨8, 9⟩, "x"⟩ }] }]
  [{ name := "A", items := [.procedure { kind := .sub, identifier := some ⟨⟨4, 7⟩, "B.C"⟩, body }] },
    { name := "A.B", items := [.procedure { kind := .sub, identifier := some ⟨⟨4, 5⟩, "C"⟩, body }] }]

theorem Source.scopes_follow_places_of_homonyms : ∃ t t', (Project.ofModules homonyms {}).modules = [t, t'] ∧
    (∀ x ∈ t.located none, Scoped "A" x.1 x.2) ∧
    ∃ x ∈ t.located none, ∃ x' ∈ t'.located none, x.2.kind = .var ∧ x'.2.kind = .var ∧
      x.2.scope.text = x'.2.scope.text ∧ x.2.scope ≠ x'.2.scope := by
  obtain ⟨m, t, t', hm, ht, hd, x, hx, x', hx', hk, hk', htext, hplace⟩ : ∃ m t t',
      m.name = "A" ∧ (Project.ofModules homonyms {}).modules = [t, t'] ∧ Module.declare m {} = .ok t ∧
      ∃ x, (t.located none)[3]? = some x ∧ ∃ x', (t'.located none)[3]? = some x' ∧
      x.2.kind = .var ∧ x'.2.kind = .var ∧ x.2.scope.text = x'.2.scope.text ∧ x.1 ≠ x'.1 :=
    ⟨homonyms[0], _, _, rfl, rfl, rfl, _, rfl, _, rfl, rfl, rfl, rfl, by decide⟩
  have hx := List.mem_of_getElem? hx
  have hx' := List.mem_of_getElem? hx'
  obtain ⟨places, project, -⟩ := scopes_follow_places {}
  refine ⟨t, t', ht, hm ▸ (places m t hd).2.2, x, hx, x', hx', hk, hk', htext, fun h => hplace ?_⟩
  exact ((project homonyms t (by simp [ht]) t' (by simp [ht]) x hx x' hx').1.1 h).2

end DeclTree
