import DeclTree.Project
/-!
# What becomes of every module

A project accounts for each of its modules once, at the module's own place:
with its tree or with its fault. Modules do not see one another, so the project
of two lists of modules is made of the projects of each list.
-/
namespace DeclTree.Project

/-- Two projects, one after the other. -/
instance : Append Project := ⟨fun p q => ⟨p.modules ++ q.modules, p.exclusions ++ q.exclusions⟩⟩

theorem append_eq (p q : Project) : p ++ q = ⟨p.modules ++ q.modules, p.exclusions ++ q.exclusions⟩ := rfl

/-! ## Places in a filtered list -/

/-- What `g` makes of a member stands behind what it makes of the members
before that one. -/
theorem getElem?_filterMap_of_getElem? {α β : Type} {g : α → Option β} {a : α} {b : β} (hb : g a = some b)
    {l : List α} {i : Nat} (ha : l[i]? = some a) :
    (l.filterMap g)[(l.take i).countP fun x => (g x).isSome]? = some b := by
  induction l generalizing i with
  | nil => cases ha
  | cons x l ih =>
    cases i with
    | zero =>
      rw [List.getElem?_cons_zero, Option.some.injEq] at ha
      simp [ha, hb]
    | succ i =>
      rw [List.getElem?_cons_succ] at ha
      have hl := ih ha
      -- Only a member of which something is made moves the places behind it.
      cases hx : g x with
      | none => simpa [hx] using hl
      | some y => simpa [hx, List.countP_cons] using hl

/-! ## Outcomes -/

/-- The module can be built. -/
def builds (settings : Settings) (m : Source.Module) : Bool := (m.declare settings).isOk

/-- The fault of a module that cannot be built, with the module's name. -/
def failure? (settings : Settings) (m : Source.Module) : Option Exclusion :=
  match m.declare settings with
  | .ok _ => none
  | .error fault => some ⟨m.name, fault⟩

theorem isSome_toOption (settings : Settings) (m : Source.Module) :
    (m.declare settings).toOption.isSome = builds settings m := by
  unfold builds; cases m.declare settings <;> rfl

theorem isSome_failure? (settings : Settings) (m : Source.Module) :
    (failure? settings m).isSome = !builds settings m := by
  unfold failure? builds; cases m.declare settings <;> rfl

theorem exclusions_eq (modules : List Source.Module) (settings : Settings) :
    (ofModules modules settings).exclusions = modules.filterMap (failure? settings) :=
  exclusions_ofModules modules settings

theorem ofModules_eq (modules : List Source.Module) (settings : Settings) :
    ofModules modules settings =
      ⟨modules.filterMap fun m => (m.declare settings).toOption, modules.filterMap (failure? settings)⟩ := by
  rw [← modules_ofModules, ← exclusions_eq]

/-! ## The account -/

/-- The project accounts for these modules. Its trees are those of the modules
that can be built, its exclusions those of the others, both in order. A module
that can be built has its tree behind the trees of the modules before it, and
any other module has its exclusion behind theirs. -/
structure Accounts (modules : List Source.Module) (settings : Settings) (p : Project) : Prop where
  trees : p.modules = modules.filterMap fun m => (m.declare settings).toOption
  faults : p.exclusions = modules.filterMap (failure? settings)
  placed : ∀ i m, modules[i]? = some m →
    (∃ tree, m.declare settings = .ok tree ∧
      p.modules[(modules.take i).countP (builds settings)]? = some tree) ∨
    (∃ fault, m.declare settings = .error fault ∧
      p.exclusions[(modules.take i).countP (!builds settings ·)]? = some ⟨m.name, fault⟩)
  total : p.modules.length + p.exclusions.length = modules.length
  complete : p.isComplete ↔ p.modules.length = modules.length

theorem length_ofModules (modules : List Source.Module) (settings : Settings) :
    (ofModules modules settings).modules.length + (ofModules modules settings).exclusions.length =
      modules.length := by
  rw [modules_ofModules, exclusions_eq, List.length_filterMap_eq_countP, List.length_filterMap_eq_countP,
    List.length_eq_countP_add_countP (builds settings) (l := modules)]
  simp [isSome_toOption, isSome_failure?]

theorem accounts_ofModules (modules : List Source.Module) (settings : Settings) :
    Accounts modules settings (ofModules modules settings) where
  trees := modules_ofModules modules settings
  faults := exclusions_eq modules settings
  placed i m hm := by
    rw [modules_ofModules, exclusions_eq]
    cases h : m.declare settings with
    | ok tree =>
      refine .inl ⟨tree, rfl, ?_⟩
      have hf : (m.declare settings).toOption = some tree := by rw [h]; rfl
      simpa only [isSome_toOption] using
        getElem?_filterMap_of_getElem? (g := fun m => (m.declare settings).toOption) hf hm
    | error fault =>
      refine .inr ⟨fault, rfl, ?_⟩
      have hf : failure? settings m = some ⟨m.name, fault⟩ := by rw [failure?, h]
      simpa only [isSome_failure?] using getElem?_filterMap_of_getElem? hf hm
  total := length_ofModules modules settings
  complete := by
    have ht := length_ofModules modules settings
    rw [isComplete, List.isEmpty_iff_length_eq_zero]
    omega

theorem ofModules_append (xs ys : List Source.Module) (settings : Settings) :
    ofModules (xs ++ ys) settings = ofModules xs settings ++ ofModules ys settings := by
  simp only [ofModules_eq, append_eq, List.filterMap_append]

/-- What a module is read as does not depend on how the others are built. -/
theorem declare_parallel (m : Source.Module) (settings : Settings) (parallel : Bool) :
    m.declare { settings with parallel } = m.declare settings := rfl

theorem ofModules_parallel (modules : List Source.Module) (settings : Settings) (parallel : Bool) :
    ofModules modules { settings with parallel } = ofModules modules settings := by
  have hf : failure? { settings with parallel } = failure? settings := by
    funext m
    rw [failure?, declare_parallel, failure?]
  simp only [ofModules_eq, declare_parallel, hf]

/-! ## Main theorem -/

/-- A project accounts for every one of its modules, whether they are built
side by side or not, and what becomes of a module does not depend on the
modules before and after it. -/
theorem project_accounts (modules : List Source.Module) (settings : Settings) :
    Accounts modules settings (ofModules modules settings) ∧
    (∀ parallel, ofModules modules { settings with parallel } = ofModules modules settings) ∧
    (∀ others, ofModules (modules ++ others) settings = ofModules modules settings ++ ofModules others settings) ∧
    ∀ m others, ofModules (modules ++ m :: others) settings =
      ofModules modules settings ++ ofModules [m] settings ++ ofModules others settings := by
  refine ⟨accounts_ofModules modules settings, ofModules_parallel modules settings,
    fun others => ofModules_append modules others settings, fun m others => ?_⟩
  rw [← ofModules_append, ← ofModules_append, List.append_assoc, List.singleton_append]

end DeclTree.Project
