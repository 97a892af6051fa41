/-!
# Scopes

A declaration belongs to a module or to a procedure inside a module. The text
of a scope joins the two names by a dot; since names may hold dots themselves,
two scopes can share a text and still differ.
-/
namespace DeclTree

/-- The code unit that a declaration belongs to. -/
inductive Scope
  | module (name : String)
  | procedure (module name : String)
deriving DecidableEq, Inhabited

namespace Scope

/-- The name of the module that the scope is or lies in. -/
def moduleName : Scope → String
  | .module name => name
  | .procedure m _ => m

/-- The name of the procedure, if the scope is one. -/
def procedureName? : Scope → Option String
  | .module _ => none
  | .procedure _ p => some p

/-- The scope is a procedure's. -/
def isProcedure (s : Scope) : Bool := s.procedureName?.isSome

/-- The module's name, followed in a procedure by a dot and the procedure's
name. -/
def text : Scope → String
  | .module name => name
  | .procedure m p => m ++ "." ++ p

/-- The scope that a text names, split at its first dot. Neither part may be
empty; the second may hold further dots. -/
def parse? (text : String) : Option Scope :=
  let head := text.toList.takeWhile (· ≠ '.')
  match text.toList.dropWhile (· ≠ '.') with
  | [] => if head = [] then none else some (.module text)
  | _ :: rest =>
    if head = [] ∨ rest = [] then none
    else some (.procedure (String.ofList head) (String.ofList rest))

@[simp] theorem moduleName_module (m : String) : (module m).moduleName = m := rfl
@[simp] theorem moduleName_procedure (m p : String) : (procedure m p).moduleName = m := rfl
@[simp] theorem procedureName?_module (m : String) : (module m).procedureName? = none := rfl
@[simp] theorem procedureName?_procedure (m p : String) : (procedure m p).procedureName? = some p := rfl
@[simp] theorem isProcedure_module (m : String) : (module m).isProcedure = false := rfl
@[simp] theorem isProcedure_procedure (m p : String) : (procedure m p).isProcedure = true := rfl

/-- Two scopes are one when their module names and their procedure names are. -/
theorem ext_iff {s t : Scope} :
    s = t ↔ s.moduleName = t.moduleName ∧ s.procedureName? = t.procedureName? := by
  cases s <;> cases t <;> simp

end Scope

end DeclTree
