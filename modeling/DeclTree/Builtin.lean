/-!
# Built-in types

The types that the language itself names, and the marks at the end of an
identifier that stand for six of them.
-/
namespace DeclTree

/-- The built-in types. -/
inductive Builtin
  | boolean
  | byte
  | currency
  | date
  | decimal
  | double
  | integer
  | long
  | longLong
  | longPtr
  | object
  | single
  | string
  | variant
deriving DecidableEq, Inhabited

namespace Builtin

/-- Every built-in type, in alphabetical order. -/
def all : List Builtin :=
  [.boolean, .byte, .currency, .date, .decimal, .double, .integer, .long, .longLong, .longPtr,
    .object, .single, .string, .variant]

/-- The spelling of the type in a declaration. -/
def name : Builtin → String
  | .boolean => "Boolean"
  | .byte => "Byte"
  | .currency => "Currency"
  | .date => "Date"
  | .decimal => "Decimal"
  | .double => "Double"
  | .integer => "Integer"
  | .long => "Long"
  | .longLong => "LongLong"
  | .longPtr => "LongPtr"
  | .object => "Object"
  | .single => "Single"
  | .string => "String"
  | .variant => "Variant"

/-- The type of a symbol that is declared without one. -/
def fallback : Builtin := .variant

/-- The marks that may end an identifier, with the type each stands for. -/
def sigils : List (Char × Builtin) :=
  [('%', .integer), ('&', .long), ('@', .decimal), ('!', .single), ('#', .double), ('$', .string)]

/-- The type that a mark stands for. -/
def ofSigil? (c : Char) : Option Builtin := sigils.lookup c

/-- The mark in a type hint: its only character. -/
def sigil? (hint : String) : Option Char :=
  match hint.toList with
  | [c] => some c
  | _ => none

/-- The type that a hint stands for. -/
def ofHint? (hint : String) : Option Builtin := (sigil? hint).bind ofSigil?

/-- No two types are spelled alike. -/
theorem name_injective {a b : Builtin} (h : a.name = b.name) : a = b := by
  revert h; cases a <;> cases b <;> decide

theorem sigil?_eq_some {hint : String} {c : Char} : sigil? hint = some c ↔ hint.toList = [c] := by
  unfold sigil?; split <;> simp_all

end Builtin

end DeclTree
