import DeclTree.Span
/-!
# Declarations as written

What is read of a code module of Visual Basic for Applications: its variable
and constant statements and its procedures, each with the place it was read
from. A part that the language requires is still an `Option`, so that a reader
that lost it is found out when the declaration is resolved.
-/
namespace DeclTree.Source

/-! ## Clauses -/

/-- A piece of source text and its place. -/
structure Excerpt where
  span : Span := {}
  text : String
deriving DecidableEq, Inhabited

/-- A clause `As [New] T`. -/
structure AsClause where
  span : Span := {}
  isNew : Bool := false
  typeName : Option Excerpt := none
deriving DecidableEq, Inhabited

/-! ## Statements -/

/-- One variable of a statement, such as `a(10)`, `b$` or `c As New Collection`. -/
structure VariableEntry where
  span : Span := {}
  identifier : Option Excerpt := none
  subscripts : Option Span := none
  typeHint : Option Excerpt := none
  asClause : Option AsClause := none
deriving DecidableEq, Inhabited

/-- The words that introduce local variables. -/
inductive LocalKeyword
  | dim
  | static
deriving DecidableEq, Inhabited

/-- A statement that declares variables, introduced by a local keyword, by a
visibility keyword, or by neither. -/
structure VariableStatement where
  span : Span := {}
  visibility : Option Excerpt := none
  localKeyword : Option LocalKeyword := none
  withEvents : Bool := false
  entries : List VariableEntry := []
deriving DecidableEq, Inhabited

/-- The statement is introduced by a local keyword. -/
def VariableStatement.isLocal (s : VariableStatement) : Bool := s.localKeyword.isSome

/-- One constant of a statement, such as `Limit As Long = 5`. -/
structure ConstantEntry where
  span : Span := {}
  identifier : Option Excerpt := none
  typeHint : Option Excerpt := none
  asClause : Option AsClause := none
  value : Option Excerpt := none
deriving DecidableEq, Inhabited

/-- A statement that declares constants. -/
structure ConstantStatement where
  span : Span := {}
  visibility : Option Excerpt := none
  entries : List ConstantEntry := []
deriving DecidableEq, Inhabited

/-- A statement that may stand at the head of a module and in the body of a
procedure. -/
inductive Declaration
  | variables (statement : VariableStatement)
  | constants (statement : ConstantStatement)
deriving DecidableEq, Inhabited

/-! ## Procedures and modules -/

/-- The kinds of procedures. -/
inductive ProcedureKind
  | sub
  | function
  | propertyGet
  | propertyLet
  | propertySet
deriving DecidableEq, Inhabited

/-- A call of such a procedure has a value, so the procedure has a type. -/
def ProcedureKind.returnsValue : ProcedureKind → Bool
  | .function | .propertyGet => true
  | .sub | .propertyLet | .propertySet => false

/-- A procedure with the declarations in its body. -/
structure Procedure where
  span : Span := {}
  kind : ProcedureKind
  visibility : Option Excerpt := none
  isStatic : Bool := false
  identifier : Option Excerpt := none
  typeHint : Option Excerpt := none
  asClause : Option AsClause := none
  body : List Declaration := []
deriving DecidableEq, Inhabited

/-- What a module consists of. -/
inductive Item
  | declaration (declaration : Declaration)
  | procedure (procedure : Procedure)
deriving DecidableEq, Inhabited

/-- A code module: its name and its items in the order of the text. -/
structure Module where
  name : String
  span : Span := {}
  items : List Item := []
deriving DecidableEq, Inhabited

end DeclTree.Source
