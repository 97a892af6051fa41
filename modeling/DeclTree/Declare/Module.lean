import DeclTree.Declare.Statement
/-!
# Procedures and modules

A procedure becomes a node over the statements of its body, which belong to
the procedure's scope, and a module the root over its items, which belong to
the module's. The source is read in order and the first fault ends the reading.
-/
namespace DeclTree.Source

/-! ## Procedures -/

/-- The type of a procedure's value, if a call of it has one. The type clauses
of other procedures are not looked at. -/
def Procedure.returnType (p : Procedure) : Except Fault (Option DeclaredType) :=
  if p.kind.returnsValue then (DeclaredType.resolve p.asClause p.typeHint).map some else .ok none

/-- The node of a procedure over the statements of its body. Its name, its
accessibility and its type are looked at before its body; a procedure is never
local. -/
def Procedure.declare (p : Procedure) (scope : Scope) (settings : Settings) : Except Fault Node := do
  let name ← declaredName p.span p.identifier
  let accessibility ← Accessibility.resolve false p.visibility settings.procedureDefault
  let returnType ← p.returnType
  let children ← p.body.mapM (·.declare (.procedure scope.moduleName name) settings)
  return {
    source := p.span, scope, children
    entity := .procedure { name, kind := p.kind, isStatic := p.isStatic, accessibility, returnType } }

/-! ## Modules -/

/-- The node of an item of a module. -/
def Item.declare (item : Item) (scope : Scope) (settings : Settings) : Except Fault Node :=
  match item with
  | .declaration d => d.declare scope settings
  | .procedure p => p.declare scope settings

/-- The declaration tree of a module. -/
def Module.declare (m : Module) (settings : Settings) : Except Fault Node := do
  let children ← m.items.mapM (·.declare (.module m.name) settings)
  return { source := m.span, scope := .module m.name, children, entity := .module m.name }

end DeclTree.Source
