import DeclTree.Declare.Entry
import DeclTree.Settings
/-!
# Statements

Every statement becomes a node over its symbols, in their order; the first
symbol with a fault decides. Whatever is declared in a procedure is local. At
the head of a module only variables introduced by a local keyword are.
-/
namespace DeclTree.Source

/-- What the variables of a statement have in common in a scope. -/
def VariableStatement.placement (s : VariableStatement) (scope : Scope) (settings : Settings) :
    Placement where
  scope := scope
  isLocal := s.isLocal || scope.isProcedure
  visibility := s.visibility
  default := settings.variableDefault

/-- The node of a statement that declares variables, over the variables. -/
def VariableStatement.declare (s : VariableStatement) (scope : Scope) (settings : Settings) :
    Except Fault Node := do
  let place := s.placement scope settings
  let children ← s.entries.mapM (·.declare place)
  return {
    source := s.span, scope, children
    entity := .varDeclaration {
      isLocal := place.isLocal
      rawVisibility := s.visibility.map (·.text)
      withEvents := s.withEvents } }

/-- What the constants of a statement have in common in a scope. -/
def ConstantStatement.placement (s : ConstantStatement) (scope : Scope) (settings : Settings) :
    Placement where
  scope := scope
  isLocal := scope.isProcedure
  visibility := s.visibility
  default := settings.constantDefault

/-- The node of a statement that declares constants, over the constants. -/
def ConstantStatement.declare (s : ConstantStatement) (scope : Scope) (settings : Settings) :
    Except Fault Node := do
  let place := s.placement scope settings
  let children ← s.entries.mapM (·.declare place)
  return {
    source := s.span, scope, children
    entity := .constDeclaration {
      isLocal := place.isLocal
      rawVisibility := s.visibility.map (·.text) } }

/-- The node of a statement. -/
def Declaration.declare (d : Declaration) (scope : Scope) (settings : Settings) : Except Fault Node :=
  match d with
  | .variables s => s.declare scope settings
  | .constants s => s.declare scope settings

end DeclTree.Source
