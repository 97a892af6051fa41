import DeclTree.Tree.Node
/-!
# Symbols of a statement

Each variable and each constant of a statement becomes a leaf of the tree. An
entry is looked at part by part, and the first part that is at fault decides:
a variable's name, type and accessibility; a constant's name, value, type and
accessibility.
-/
namespace DeclTree

/-- What the symbols of a statement have in common: the scope they belong to,
whether they are local, the statement's visibility clause, and the
accessibility of a symbol that is not local when there is no such clause. -/
structure Placement where
  scope : Scope
  isLocal : Bool
  visibility : Option Source.Excerpt
  default : Accessibility
deriving DecidableEq, Inhabited

/-- The accessibility of every symbol of the statement. -/
def Placement.accessibility (p : Placement) : Except Fault Accessibility :=
  Accessibility.resolve p.isLocal p.visibility p.default

namespace Source

/-- The name in an identifier, which must be there and not be empty. The fault
is at the declaration when there is no identifier, and at the identifier when
it is empty. -/
def declaredName (place : Span) (identifier : Option Excerpt) : Except Fault String := do
  let found ← Part.identifier.require place identifier
  if found.text = "" then .error (.missing .identifier found.span) else .ok found.text

/-- The variable that an entry declares. -/
def VariableEntry.declare (entry : VariableEntry) (place : Placement) : Except Fault Node := do
  let name ← declaredName entry.span entry.identifier
  let type ← DeclaredType.resolve entry.asClause entry.typeHint
  let accessibility ← place.accessibility
  return {
    source := entry.span
    scope := place.scope
    entity := .var {
      name, type, accessibility
      isArray := entry.subscripts.isSome
      isNew := entry.asClause.any (·.isNew) } }

/-- The constant that an entry declares. -/
def ConstantEntry.declare (entry : ConstantEntry) (place : Placement) : Except Fault Node := do
  let name ← declaredName entry.span entry.identifier
  let value ← Part.constantValue.require entry.span entry.value
  let type ← DeclaredType.resolve entry.asClause entry.typeHint
  let accessibility ← place.accessibility
  return {
    source := entry.span
    scope := place.scope
    entity := .const { name, type, accessibility, value := value.text } }

@[simp] theorem declaredName_none (place : Span) :
    declaredName place none = .error (.missing .identifier place) := rfl

theorem declaredName_some (place : Span) (found : Excerpt) :
    declaredName place (some found) =
      if found.text = "" then .error (.missing .identifier found.span) else .ok found.text := rfl

end Source

end DeclTree
