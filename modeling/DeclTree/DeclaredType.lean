import DeclTree.Builtin
import DeclTree.Fault
import DeclTree.Source
/-!
# Declared types

A symbol's type comes from exactly one source: its As clause; without one, its
type hint; without either, the language's fallback. A hint beside an As clause
is not looked at.
-/
namespace DeclTree

/-- A type as a declaration records it: its name and how the symbol came by it. -/
structure DeclaredType where
  name : String
  isImplicit : Bool
  isHinted : Bool
deriving DecidableEq, Inhabited

/-- Where a symbol's type comes from. -/
inductive TypeSource
  | written (name : String)
  | hinted (type : Builtin)
  | implicit
deriving DecidableEq, Inhabited

namespace TypeSource

/-- What is recorded of a type from this source. -/
def declared : TypeSource → DeclaredType
  | .written name => ⟨name, false, false⟩
  | .hinted type => ⟨type.name, false, true⟩
  | .implicit => ⟨Builtin.fallback.name, true, false⟩

/-- What an As clause says; it must name a type. -/
def ofAsClause (clause : Source.AsClause) : Except Fault TypeSource :=
  (Part.typeName.require clause.span clause.typeName).map fun name => .written name.text

/-- What a type hint says; it must be one of the sigils. -/
def ofHint (hint : Source.Excerpt) : Except Fault TypeSource :=
  match Builtin.ofHint? hint.text with
  | some type => .ok (.hinted type)
  | none => .error (.unknownHint hint.text hint.span)

/-- The source of a symbol's type. -/
def resolve : Option Source.AsClause → Option Source.Excerpt → Except Fault TypeSource
  | some clause, _ => ofAsClause clause
  | none, some hint => ofHint hint
  | none, none => .ok .implicit

@[simp] theorem resolve_asClause (clause : Source.AsClause) (hint : Option Source.Excerpt) :
    resolve (some clause) hint = ofAsClause clause := rfl
@[simp] theorem resolve_hint (hint : Source.Excerpt) : resolve none (some hint) = ofHint hint := rfl
@[simp] theorem resolve_implicit : resolve none none = .ok .implicit := rfl

/-- What is recorded tells the sources apart. -/
theorem declared_injective {a b : TypeSource} (h : a.declared = b.declared) : a = b := by
  cases a <;> cases b <;> simp_all [declared]
  exact Builtin.name_injective h

end TypeSource

/-- The type of a symbol with this As clause and this type hint. -/
def DeclaredType.resolve (asClause : Option Source.AsClause) (hint : Option Source.Excerpt) :
    Except Fault DeclaredType :=
  (TypeSource.resolve asClause hint).map TypeSource.declared

end DeclTree
