import DeclTree.Proofs.Places
/-!
# Who may use the symbols of a statement

Locality comes first. A statement is local inside a procedure, and a statement
that declares variables also after a local keyword. The node of a statement
then decides the accessibility of all symbols under it: they are private if it
is local, and otherwise have the accessibility that its visibility spells, or a
default where it has none. So nothing declared inside a procedure is ever more
than private.
-/
namespace DeclTree

/-- The entity's accessibility, if it has one. -/
def Entity.accessibility? : Entity → Option Accessibility
  | .procedure p => some p.accessibility
  | .var v => some v.accessibility
  | .const c => some c.accessibility
  | .module _ | .varDeclaration _ | .constDeclaration _ => none

/-! ## One statement -/

/-- What the node of a statement makes of the accessibility of its symbols.
Spelled visibilities stand for one accessibility each, whatever the white space
around them and their letter case. -/
def Accessibility.Lawful (isLocal : Bool) (visibility : Option String) (default a : Accessibility) : Prop :=
  if isLocal then a = .priv
  else
    match visibility with
    | none => a = default
    | some text => ∀ b : Accessibility, Text.eqCaseless b.keyword (Text.trim text) ↔ b = a

/-- All symbols under the node of a statement have the accessibility that the
node makes of it. -/
def Governs (isLocal : Bool) (visibility : Option String) (default : Accessibility) (symbols : List Node) : Prop :=
  symbols ≠ [] → ∃ a, Accessibility.Lawful isLocal visibility default a ∧
    ∀ c ∈ symbols, c.entity.accessibility? = some a

section Placements
variable {p : Placement} {a : Accessibility}

theorem priv_of_isLocal (hl : p.isLocal = true) (h : p.accessibility = .ok a) : a = .priv := by
  rw [Source.accessibility_of_isLocal hl] at h
  exact (Except.ok.inj h).symm

theorem lawful_of_accessibility (h : p.accessibility = .ok a) :
    Accessibility.Lawful p.isLocal (p.visibility.map (·.text)) p.default a := by
  cases hl : p.isLocal with
  | true => exact priv_of_isLocal hl h
  | false =>
    rw [Placement.accessibility, hl, Accessibility.resolve_eq_ok] at h
    cases hv : p.visibility with
    | none =>
      rw [hv] at h
      exact h
    | some clause =>
      rw [hv] at h
      have ha : Text.eqCaseless a.keyword (Text.trim clause.text) := h
      intro b
      constructor
      · intro hb
        rw [Text.eqCaseless_iff] at ha hb
        exact Accessibility.foldCase_keyword_injective (hb.trans ha.symm)
      · rintro rfl
        exact ha

/-- One placement gives all symbols the same accessibility. -/
theorem governs_of_placement {symbols : List Node}
    (h : ∀ c ∈ symbols, ∃ a, p.accessibility = .ok a ∧ c.entity.accessibility? = some a) :
    Governs p.isLocal (p.visibility.map (·.text)) p.default symbols := by
  intro hne
  obtain ⟨c, hc⟩ := List.exists_mem_of_ne_nil symbols hne
  obtain ⟨a, ha, -⟩ := h c hc
  refine ⟨a, lawful_of_accessibility ha, fun d hd => ?_⟩
  obtain ⟨b, hb, hdb⟩ := h d hd
  rw [hdb, Except.ok.inj (hb.symm.trans ha)]

end Placements

namespace Source

/-! ## Every part of a source -/

/-- What decides about accessibility at the node of this part of the source,
which stands at this place. -/
def Construct.Governed (settings : Settings) (within : Option String) : Construct → Node → Prop
  | .varStatement s, n => ∃ d, n.entity = .varDeclaration d ∧
    (d.isLocal ↔ within ≠ none ∨ s.localKeyword ≠ none) ∧
    Governs d.isLocal d.rawVisibility settings.variableDefault n.children
  | .constStatement _, n => ∃ d, n.entity = .constDeclaration d ∧ (d.isLocal ↔ within ≠ none) ∧
    Governs d.isLocal d.rawVisibility settings.constantDefault n.children
  | .var _, n => ∃ v, n.entity = .var v ∧ (n.scope.isProcedure → v.accessibility = .priv)
  | .const _, n => ∃ c, n.entity = .const c ∧ (n.scope.isProcedure → c.accessibility = .priv)
  | .procedure p, n => ∃ q, n.entity = .procedure q ∧
    Accessibility.Effective p.visibility settings.procedureDefault q.accessibility

theorem isProcedure_inside {module : String} {within : Option String} :
    (Scope.inside module within).isProcedure ↔ within ≠ none := by
  cases within <;> simp [Scope.inside]

theorem governed_of_readAs {part : Construct} {module : String} {settings : Settings} {within : Option String}
    {n : Node} (h : part.ReadAs module settings within n) : part.Governed settings within n := by
  match part with
  | .varStatement s =>
    obtain ⟨children, hc, rfl⟩ := VariableStatement.declare_eq_ok.1 h
    refine ⟨_, rfl, ?_, governs_of_placement (p := s.placement (.inside module within) settings) ?_⟩
    · simp [VariableStatement.placement, VariableStatement.isLocal, isProcedure_inside,
        Option.isSome_iff_ne_none, or_comm]
    · refine forall_of_forall₂ hc fun e c he => ?_
      obtain ⟨_, _, a, -, -, ha, rfl⟩ := VariableEntry.declare_eq_ok.1 he
      exact ⟨a, ha, rfl⟩
  | .constStatement s =>
    obtain ⟨children, hc, rfl⟩ := ConstantStatement.declare_eq_ok.1 h
    refine ⟨_, rfl, isProcedure_inside,
      governs_of_placement (p := s.placement (.inside module within) settings) ?_⟩
    refine forall_of_forall₂ hc fun e c he => ?_
    obtain ⟨_, _, _, a, -, -, -, ha, rfl⟩ := ConstantEntry.declare_eq_ok.1 he
    exact ⟨a, ha, rfl⟩
  | .var e =>
    obtain ⟨s, -, he⟩ := h
    obtain ⟨_, _, a, -, -, ha, rfl⟩ := VariableEntry.declare_eq_ok.1 he
    refine ⟨_, rfl, fun hscope => priv_of_isLocal ?_ ha⟩
    exact (congrArg (s.isLocal || ·) hscope).trans (Bool.or_true _)
  | .const e =>
    obtain ⟨s, -, he⟩ := h
    obtain ⟨_, _, _, a, -, -, -, ha, rfl⟩ := ConstantEntry.declare_eq_ok.1 he
    exact ⟨_, rfl, fun hscope => priv_of_isLocal hscope ha⟩
  | .procedure p =>
    obtain ⟨-, hp⟩ := h
    obtain ⟨_, a, _, _, -, ha, -, -, rfl⟩ := Procedure.declare_eq_ok.1 hp
    exact ⟨_, rfl, Accessibility.resolve_eq_ok.1 ha⟩

theorem Construct.Governed.priv {part : Construct} {settings : Settings} {within : Option String} {n : Node}
    (h : part.Governed settings within n) (hk : n.kind = .var ∨ n.kind = .const) (hs : n.scope.isProcedure) :
    n.entity.accessibility? = some .priv := by
  match part with
  | .varStatement s =>
    obtain ⟨d, hd, -⟩ := h
    simp [Node.kind, hd, Entity.kind] at hk
  | .var e =>
    obtain ⟨v, hv, hp⟩ := h
    rw [hv, Entity.accessibility?, hp hs]
  | .constStatement s =>
    obtain ⟨d, hd, -⟩ := h
    simp [Node.kind, hd, Entity.kind] at hk
  | .const e =>
    obtain ⟨c, hc, hp⟩ := h
    rw [hc, Entity.accessibility?, hp hs]
  | .procedure p =>
    obtain ⟨q, hq, -⟩ := h
    simp [Node.kind, hq, Entity.kind] at hk

/-- Whatever is declared in a procedure is private. -/
theorem priv_of_mem_preorder {m : Module} {settings : Settings} {root : Node} (h : m.declare settings = .ok root) :
    ∀ n ∈ root.preorder, n.kind = .var ∨ n.kind = .const → n.scope.isProcedure →
      n.entity.accessibility? = some .priv := by
  intro n hn hk hs
  rw [← Node.map_snd_located root none] at hn
  obtain ⟨x, hx, rfl⟩ := List.mem_map.1 hn
  have hbelow := forall_located (P := fun _ n => n.kind = .var ∨ n.kind = .const → n.scope.isProcedure →
    n.entity.accessibility? = some .priv) h fun part within n hr => (governed_of_readAs hr).priv
  obtain ⟨children, -, rfl⟩ := Module.declare_eq_ok.1 h
  rw [Node.located_eq] at hx
  rcases List.mem_cons.1 hx with rfl | hx
  · cases hs
  · exact hbelow x hx hk hs

/-! ## Main theorem -/

/-- In a built tree, beside the source and from place to place, the node of
each statement is local as the law has it and decides the accessibility of all
of its symbols, and a procedure has the accessibility of its own keyword or the
default. Variables and constants that have a procedure's scope are private. -/
theorem statements_govern {m : Module} {settings : Settings} {root : Node} (h : m.declare settings = .ok root) :
    List.Forall₂ (fun part node => part.1 = node.1 ∧ part.2.Governed settings node.1 node.2)
      m.survey (Node.locatedAll none root.children) ∧
    ∀ n ∈ root.preorder, n.kind = .var ∨ n.kind = .const → n.scope.isProcedure →
      n.entity.accessibility? = some .priv := by
  refine ⟨(surveyed_module h).imp fun part node hx => ?_, priv_of_mem_preorder h⟩
  exact ⟨hx.1, governed_of_readAs hx.2⟩

/-- The constant's unknown keyword is not looked at inside the function. -/
theorem statements_govern_of_ledger : ∃ root, ledger.declare {} = .ok root ∧
    List.Forall₂ (fun part node => part.1 = node.1 ∧ part.2.Governed {} node.1 node.2)
      ledger.survey (Node.locatedAll none root.children) ∧
    ∃ n ∈ root.preorder, n.name? = some "Cap" ∧ n.entity.accessibility? = some .priv := by
  obtain ⟨root, h, n, hn, hname, hk, hs⟩ : ∃ root, ledger.declare {} = .ok root ∧
      ∃ n, root.preorder[6]? = some n ∧ n.name? = some "Cap" ∧ n.kind = .const ∧ n.scope.isProcedure :=
    ⟨_, rfl, _, rfl, rfl, rfl, rfl⟩
  have hn := List.mem_of_getElem? hn
  have hg := statements_govern h
  exact ⟨root, h, hg.1, n, hn, hname, hg.2 n hn (.inr hk) hs⟩

end Source

end DeclTree
