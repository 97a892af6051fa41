import DeclTree.Declare.Module
/-!
# Projects

The modules of a project are built each for itself. A module with a fault is
set aside with its first fault, and all others are built as if it were not
there.
-/
namespace DeclTree

/-- A module that was set aside, with its fault. -/
structure Exclusion where
  module : String
  fault : Fault
deriving DecidableEq, Inhabited

/-- The fault's report, with a note that names the module. -/
def Exclusion.diagnostic (e : Exclusion) : Diagnostic :=
  e.fault.diagnostic.addNote
    ("declarations of module `" ++ e.module ++ "` were excluded from the analysis")

/-- The trees of the modules that were built, and the modules that were set
aside, both in the order of the project. -/
structure Project where
  modules : List Node := []
  exclusions : List Exclusion := []
deriving DecidableEq, Inhabited

/-- What the tasks for the members of a list return. It is assumed of whatever
runs the tasks that the results are handed back in the order of the members, in
whatever order the tasks come to an end. -/
def sideBySide {α β : Type} (f : α → β) (l : List α) : List β :=
  (l.map fun a => Task.spawn fun _ => f a).map Task.get

/-- Handed back in order, the results are those of doing one after the other. -/
theorem sideBySide_eq_map {α β : Type} (f : α → β) (l : List α) : sideBySide f l = l.map f := by
  rw [sideBySide, List.map_map]
  rfl

namespace Project

/-- Nothing was set aside. -/
def isComplete (p : Project) : Bool := p.exclusions.isEmpty

/-- The first tree that is a module's and whose module has the name, in
whatever case. -/
def module? (p : Project) (name : String) : Option Node :=
  p.modules.find? fun n => n.entity.moduleName?.any fun m => Text.eqCaseless m name

/-- What becomes of each module, in the order of the modules. They are built side
by side where the settings ask for it, and the order is then the one that
`sideBySide` assumes. -/
def outcomes (modules : List Source.Module) (settings : Settings) : List (Except Fault Node) :=
  if settings.parallel then sideBySide (·.declare settings) modules
  else modules.map (·.declare settings)

/-- The module set aside, if its outcome is a fault. -/
def exclusion? (m : Source.Module) : Except Fault Node → Option Exclusion
  | .ok _ => none
  | .error fault => some ⟨m.name, fault⟩

/-- Builds the modules and sorts out those at fault. -/
def ofModules (modules : List Source.Module) (settings : Settings) : Project :=
  let outcomes := outcomes modules settings
  { modules := outcomes.filterMap Except.toOption
    exclusions := (modules.zipWith exclusion? outcomes).filterMap id }

/-- Building side by side changes nothing. -/
theorem outcomes_eq (modules : List Source.Module) (settings : Settings) :
    outcomes modules settings = modules.map (·.declare settings) := by
  unfold outcomes
  split
  · exact sideBySide_eq_map _ _
  · rfl

theorem modules_ofModules (modules : List Source.Module) (settings : Settings) :
    (ofModules modules settings).modules = modules.filterMap fun m => (m.declare settings).toOption := by
  simp only [ofModules, outcomes_eq, List.filterMap_map]; rfl

theorem exclusions_ofModules (modules : List Source.Module) (settings : Settings) :
    (ofModules modules settings).exclusions =
      modules.filterMap fun m => exclusion? m (m.declare settings) := by
  simp only [ofModules, outcomes_eq, List.zipWith_map_right, List.zipWith_self, List.filterMap_map]; rfl

end Project

end DeclTree
