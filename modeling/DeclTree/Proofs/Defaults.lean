import DeclTree.Proofs.Accounting
import DeclTree.Proofs.Checks
import DeclTree.Proofs.Locality
/-!
# How far a default reaches

Two settings set the same modules aside for the same faults, and their trees
differ in nothing but accessibilities. A default decides about an accessibility
only outside procedures and only where the source has no keyword: the defaults
of variables and constants about the symbols of such a statement, that of
procedures about such a procedure. Everything inside a procedure is the same.
-/
namespace DeclTree

/-- Three lists of one length whose members, place by place, are related. -/
inductive Abreast {α β γ : Type} (R : α → β → γ → Prop) : List α → List β → List γ → Prop
  | nil : Abreast R [] [] []
  | cons {a b c as bs cs} (head : R a b c) (tail : Abreast R as bs cs) :
      Abreast R (a :: as) (b :: bs) (c :: cs)

section Lists
variable {α β : Type}

theorem abreast_of_forall₂ {R : α → β → β → Prop} {f g : α → β → Prop}
    (each : ∀ a b b', f a b → g a b' → R a b b') {as : List α} {bs bs' : List β} (h : List.Forall₂ f as bs)
    (h' : List.Forall₂ g as bs') : Abreast R as bs bs' := by
  induction h generalizing bs' with
  | nil => cases h'; exact .nil
  | cons hb _ ih =>
    cases h' with
    | cons hb' h' => exact .cons (each _ _ _ hb hb') (ih h')

theorem Abreast.forall₂ {γ : Type} {R : α → β → γ → Prop} {S : β → γ → Prop} (hS : ∀ a b c, R a b c → S b c)
    {as : List α} {bs : List β} {cs : List γ} (h : Abreast R as bs cs) : List.Forall₂ S bs cs := by
  induction h with
  | nil => exact .nil
  | cons hR _ ih => exact .cons (hS _ _ _ hR) ih

theorem Abreast.length_eq {γ : Type} {R : α → β → γ → Prop} {as : List α} {bs : List β} {cs : List γ}
    (h : Abreast R as bs cs) : bs.length = cs.length :=
  (h.forall₂ (S := fun _ _ => True) fun _ _ _ _ => trivial).length_eq

/-- One list read in two ways gives lists whose members are related. -/
theorem forall₂_of_forall₂ {R : β → β → Prop} {f g : α → β → Prop}
    (each : ∀ a b b', f a b → g a b' → R b b') {as : List α} {bs bs' : List β} (h : List.Forall₂ f as bs)
    (h' : List.Forall₂ g as bs') : List.Forall₂ R bs bs' :=
  (abreast_of_forall₂ (R := fun _ b b' => R b b') each h h').forall₂ (S := R) fun _ _ _ hR => hR

end Lists

/-! ## Nodes under two settings -/

/-- The entity with this accessibility in place of its own, if it has one. -/
def Entity.withAccessibility (a : Accessibility) : Entity → Entity
  | .procedure p => .procedure { p with accessibility := a }
  | .var v => .var { v with accessibility := a }
  | .const c => .const { c with accessibility := a }
  | .module name => .module name
  | .varDeclaration d => .varDeclaration d
  | .constDeclaration d => .constDeclaration d

/-- The default that decides about the symbols under the node of a statement:
one does if the statement is not local and has no visibility. -/
def Entity.symbolDefault? : Entity → Option (Settings → Accessibility)
  | .varDeclaration d =>
    if d.isLocal = false ∧ d.rawVisibility = none then some Settings.variableDefault else none
  | .constDeclaration d =>
    if d.isLocal = false ∧ d.rawVisibility = none then some Settings.constantDefault else none
  | .module _ | .procedure _ | .var _ | .const _ => none

/-- The default that decides about a procedure: one does if the procedure has
no visibility clause. -/
def Source.Procedure.default? (p : Source.Procedure) : Option (Settings → Accessibility) :=
  if p.visibility = none then some Settings.procedureDefault else none

section TwoSettings
variable (c c' : Settings)

/-- Accessibilities under two settings. Where a default decides, each is that
of its own settings, and otherwise they are the same. -/
def Decided (default? : Option (Settings → Accessibility)) (a a' : Option Accessibility) : Prop :=
  match default? with
  | none => a = a'
  | some default => a = some (default c) ∧ a' = some (default c')

/-- Two nodes that differ in nothing but their children and an accessibility
that this default decides about. -/
structure Node.Corresponds (default? : Option (Settings → Accessibility)) (n n' : Node) : Prop where
  source : n.source = n'.source
  scope : n.scope = n'.scope
  count : n.children.length = n'.children.length
  payload : n.entity.withAccessibility .priv = n'.entity.withAccessibility .priv
  accessibility : Decided c c' default? n.entity.accessibility? n'.entity.accessibility?

/-- Two trees of one item. Symbols are leaves, and the statements in the body
of a procedure are the same. -/
inductive Source.Item.Corresponds : Source.Item → Node → Node → Prop
  | declaration {d : Source.Declaration} {n n' : Node} (self : n.Corresponds c c' none n')
      (symbols : List.Forall₂ (fun v v' => v.Corresponds c c' n.entity.symbolDefault? v' ∧
        v.children = [] ∧ v'.children = []) n.children n'.children) : Corresponds (.declaration d) n n'
  | procedure {p : Source.Procedure} {n n' : Node} (self : n.Corresponds c c' p.default? n')
      (body : n.children = n'.children) : Corresponds (.procedure p) n n'

/-- Two trees of one module. -/
structure Source.Module.Corresponds (m : Source.Module) (root root' : Node) : Prop where
  self : root.Corresponds c c' none root'
  items : Abreast (Source.Item.Corresponds c c') m.items root.children root'.children

end TwoSettings

namespace Source
variable {c c' : Settings}

theorem decided_of_resolve {isLocal : Bool} {visibility : Option Excerpt} (default : Settings → Accessibility)
    {a a' : Accessibility} (h : Accessibility.resolve isLocal visibility (default c) = .ok a)
    (h' : Accessibility.resolve isLocal visibility (default c') = .ok a') :
    Decided c c' (if isLocal = false ∧ visibility.map (·.text) = none then some default else none)
      (some a) (some a') := by
  cases isLocal with
  | true =>
    rw [Accessibility.resolve_local] at h h'
    rw [if_neg (by simp)]
    exact congrArg some (Except.ok.inj (h.symm.trans h'))
  | false =>
    cases visibility with
    | none =>
      rw [Accessibility.resolve_none] at h h'
      rw [if_pos ⟨rfl, rfl⟩]
      exact ⟨congrArg some (Except.ok.inj h).symm, congrArg some (Except.ok.inj h').symm⟩
    | some clause =>
      rw [Accessibility.resolve_some] at h h'
      rw [if_neg (by simp)]
      exact congrArg some (Except.ok.inj (h.symm.trans h'))

variable {scope : Scope} {n n' : Node}

theorem variables_correspond {s : VariableStatement} (h : s.declare scope c = .ok n)
    (h' : s.declare scope c' = .ok n') :
    Item.Corresponds c c' (.declaration (.variables s)) n n' := by
  obtain ⟨symbols, hs, rfl⟩ := VariableStatement.declare_eq_ok.1 h
  obtain ⟨symbols', hs', rfl⟩ := VariableStatement.declare_eq_ok.1 h'
  have hlen := hs.length_eq.symm.trans hs'.length_eq
  refine .declaration ⟨rfl, rfl, hlen, rfl, rfl⟩ (forall₂_of_forall₂ ?_ hs hs')
  intro e v v' hv hv'
  obtain ⟨name, type, a, hname, htype, ha, rfl⟩ := VariableEntry.declare_eq_ok.1 hv
  obtain ⟨name', type', a', hname', htype', ha', rfl⟩ := VariableEntry.declare_eq_ok.1 hv'
  cases hname.symm.trans hname'
  cases htype.symm.trans htype'
  exact ⟨⟨rfl, rfl, rfl, rfl, decided_of_resolve Settings.variableDefault ha ha'⟩, rfl, rfl⟩

theorem constants_correspond {s : ConstantStatement} (h : s.declare scope c = .ok n)
    (h' : s.declare scope c' = .ok n') :
    Item.Corresponds c c' (.declaration (.constants s)) n n' := by
  obtain ⟨symbols, hs, rfl⟩ := ConstantStatement.declare_eq_ok.1 h
  obtain ⟨symbols', hs', rfl⟩ := ConstantStatement.declare_eq_ok.1 h'
  have hlen := hs.length_eq.symm.trans hs'.length_eq
  refine .declaration ⟨rfl, rfl, hlen, rfl, rfl⟩ (forall₂_of_forall₂ ?_ hs hs')
  intro e v v' hv hv'
  obtain ⟨name, x, type, a, hname, hx, htype, ha, rfl⟩ := ConstantEntry.declare_eq_ok.1 hv
  obtain ⟨name', x', type', a', hname', hx', htype', ha', rfl⟩ := ConstantEntry.declare_eq_ok.1 hv'
  cases hname.symm.trans hname'
  cases htype.symm.trans htype'
  cases hx.symm.trans hx'
  exact ⟨⟨rfl, rfl, rfl, rfl, decided_of_resolve Settings.constantDefault ha ha'⟩, rfl, rfl⟩

/-- In a procedure no statement reads a default. -/
theorem declare_in_procedure (c c' : Settings) (d : Declaration) (hscope : scope.isProcedure) :
    d.declare scope c = d.declare scope c' := by
  match d with
  | .variables s =>
    have hl : ∀ settings, (s.placement scope settings).isLocal = true := by
      intro settings
      simp [VariableStatement.placement, hscope]
    have he : (VariableEntry.declare · (s.placement scope c)) = (·.declare (s.placement scope c')) :=
      VariableEntry.declare_of_isLocal (hl c) (hl c') rfl
    simp only [Declaration.declare, VariableStatement.declare, he]
    rfl
  | .constants s =>
    have hl : ∀ settings, (s.placement scope settings).isLocal = true := fun _ => hscope
    have he : (ConstantEntry.declare · (s.placement scope c)) = (·.declare (s.placement scope c')) :=
      ConstantEntry.declare_of_isLocal (hl c) (hl c') rfl
    simp only [Declaration.declare, ConstantStatement.declare, he]
    rfl

theorem procedures_correspond {p : Procedure} (h : p.declare scope c = .ok n) (h' : p.declare scope c' = .ok n') :
    Item.Corresponds c c' (.procedure p) n n' := by
  obtain ⟨name, a, type, body, hname, ha, htype, hb, rfl⟩ := Procedure.declare_eq_ok.1 h
  obtain ⟨name', a', type', body', hname', ha', htype', hb', rfl⟩ := Procedure.declare_eq_ok.1 h'
  cases hname.symm.trans hname'
  cases htype.symm.trans htype'
  have hbody : body = body' := by
    have hd : (Declaration.declare · (.procedure scope.moduleName name) c) =
        (·.declare (.procedure scope.moduleName name) c') := funext fun d => declare_in_procedure c c' d rfl
    rw [← mapM_eq_ok] at hb hb'
    rw [hd] at hb
    exact Except.ok.inj (hb.symm.trans hb')
  have hdec := decided_of_resolve Settings.procedureDefault ha ha'
  refine .procedure ⟨rfl, rfl, congrArg List.length hbody, rfl, ?_⟩ hbody
  simpa [Procedure.default?, Entity.accessibility?] using hdec

theorem items_correspond {item : Item} (h : item.declare scope c = .ok n) (h' : item.declare scope c' = .ok n') :
    item.Corresponds c c' n n' := by
  match item with
  | .declaration (.variables s) => exact variables_correspond h h'
  | .declaration (.constants s) => exact constants_correspond h h'
  | .procedure p => exact procedures_correspond h h'

theorem modules_correspond {m : Module} {root root' : Node} (h : m.declare c = .ok root)
    (h' : m.declare c' = .ok root') : m.Corresponds c c' root root' := by
  obtain ⟨children, hc, rfl⟩ := Module.declare_eq_ok.1 h
  obtain ⟨children', hc', rfl⟩ := Module.declare_eq_ok.1 h'
  have hitems : Abreast (Item.Corresponds c c') m.items children children' := by
    refine abreast_of_forall₂ (fun item n n' hn hn' => ?_) hc hc'
    exact items_correspond hn hn'
  exact ⟨⟨rfl, rfl, hitems.length_eq, rfl, rfl⟩, hitems⟩

/-- No setting decides whether a module is built, nor what its fault is. -/
theorem fault?_declare (c c' : Settings) (m : Module) : fault? (m.declare c) = fault? (m.declare c') :=
  (decides_module m c).symm.trans (decides_module m c')

end Source

namespace Project
variable (c c' : Settings)

theorem failure?_eq_map (settings : Settings) (m : Source.Module) :
    failure? settings m = (Source.fault? (m.declare settings)).map (⟨m.name, ·⟩) := by
  unfold failure?
  cases m.declare settings <;> rfl

theorem failure?_eq : failure? c = failure? c' := by
  funext m
  rw [failure?_eq_map, failure?_eq_map, Source.fault?_declare c c' m]

theorem trees_correspond (modules : List Source.Module) :
    Abreast (Source.Module.Corresponds c c') (modules.filter (builds c))
      (modules.filterMap fun m => (m.declare c).toOption) (modules.filterMap fun m => (m.declare c').toOption) := by
  induction modules with
  | nil => exact .nil
  | cons m modules ih =>
    have h := Source.fault?_declare c c' m
    cases hd : m.declare c with
    | ok root =>
      cases hd' : m.declare c' with
      | ok root' =>
        have hb : builds c m = true := by rw [builds, hd]; rfl
        rw [List.filter_cons_of_pos hb, List.filterMap_cons_some (b := root) (by rw [hd]; rfl),
          List.filterMap_cons_some (b := root') (by rw [hd']; rfl)]
        exact .cons (Source.modules_correspond hd hd') ih
      | error fault => rw [hd, hd'] at h; cases h
    | error fault =>
      cases hd' : m.declare c' with
      | ok root' => rw [hd, hd'] at h; cases h
      | error fault' =>
        have hb : ¬ builds c m = true := by rw [builds, hd]; nofun
        rw [List.filter_cons_of_neg hb, List.filterMap_cons_none (by rw [hd]; rfl),
          List.filterMap_cons_none (by rw [hd']; rfl)]
        exact ih

/-! ## Main theorem -/

/-- Under two settings a project has the same exclusions, and as many trees.
The trees of one module correspond, node by node. Whether modules are built
side by side does not show at all. -/
theorem settings_reach (modules : List Source.Module) :
    (ofModules modules c).exclusions = (ofModules modules c').exclusions ∧
    Abreast (Source.Module.Corresponds c c') (modules.filter (builds c))
      (ofModules modules c).modules (ofModules modules c').modules ∧
    ∀ parallel, ofModules modules { c with parallel } = ofModules modules c := by
  refine ⟨?_, ?_, ofModules_parallel modules c⟩
  · rw [exclusions_eq, exclusions_eq, failure?_eq c c']
  · rw [modules_ofModules, modules_ofModules]
    exact trees_correspond c c' modules

end Project

end DeclTree
