import DeclTree.Accessibility
import DeclTree.DeclaredType
/-!
# Declared entities

What a node of a declaration tree stands for: a module, a procedure, a
statement that declares variables or constants, or one symbol of such a
statement.
-/
namespace DeclTree

/-! ## What is known of each -/

/-- A procedure; it has a return type if its kind returns a value. -/
structure Entity.Procedure where
  name : String
  kind : Source.ProcedureKind
  isStatic : Bool
  accessibility : Accessibility
  returnType : Option DeclaredType
deriving DecidableEq, Inhabited

/-- A statement that declares variables, with its visibility as written. -/
structure Entity.VariableDeclaration where
  isLocal : Bool
  rawVisibility : Option String
  withEvents : Bool
deriving DecidableEq, Inhabited

/-- A variable. -/
structure Entity.Variable where
  name : String
  type : DeclaredType
  accessibility : Accessibility
  isArray : Bool
  isNew : Bool
deriving DecidableEq, Inhabited

/-- A statement that declares constants, with its visibility as written. -/
structure Entity.ConstantDeclaration where
  isLocal : Bool
  rawVisibility : Option String
deriving DecidableEq, Inhabited

/-- A constant, with its value as written. -/
structure Entity.Constant where
  name : String
  type : DeclaredType
  accessibility : Accessibility
  value : String
deriving DecidableEq, Inhabited

/-- What a node stands for. -/
inductive Entity
  | module (name : String)
  | procedure (procedure : Entity.Procedure)
  | varDeclaration (declaration : Entity.VariableDeclaration)
  | var (symbol : Entity.Variable)
  | constDeclaration (declaration : Entity.ConstantDeclaration)
  | const (symbol : Entity.Constant)
deriving DecidableEq, Inhabited

/-! ## Kinds -/

/-- The kinds of entities. -/
inductive EntityKind
  | module
  | procedure
  | varDeclaration
  | var
  | constDeclaration
  | const
deriving DecidableEq, Inhabited

/-- What the kind is called. -/
def EntityKind.label : EntityKind → String
  | .module => "module"
  | .procedure => "procedure"
  | .varDeclaration => "variable declaration"
  | .var => "variable"
  | .constDeclaration => "constant declaration"
  | .const => "constant"

namespace Entity

/-- The entity's kind. -/
def kind : Entity → EntityKind
  | .module _ => .module
  | .procedure _ => .procedure
  | .varDeclaration _ => .varDeclaration
  | .var _ => .var
  | .constDeclaration _ => .constDeclaration
  | .const _ => .const

/-- The entity's name; a statement has none. -/
def name? : Entity → Option String
  | .module name => some name
  | .procedure p => some p.name
  | .var v => some v.name
  | .const c => some c.name
  | .varDeclaration _ | .constDeclaration _ => none

/-- The module's name, of a module. -/
def moduleName? : Entity → Option String
  | .module name => some name
  | _ => none

/-- The procedure, of a procedure. -/
def procedure? : Entity → Option Procedure
  | .procedure p => some p
  | _ => none

/-- The statement, of a statement that declares variables. -/
def varDeclaration? : Entity → Option VariableDeclaration
  | .varDeclaration d => some d
  | _ => none

/-- The variable, of a variable. -/
def var? : Entity → Option Variable
  | .var v => some v
  | _ => none

/-- The statement, of a statement that declares constants. -/
def constDeclaration? : Entity → Option ConstantDeclaration
  | .constDeclaration d => some d
  | _ => none

/-- The constant, of a constant. -/
def const? : Entity → Option Constant
  | .const c => some c
  | _ => none

end Entity

end DeclTree
