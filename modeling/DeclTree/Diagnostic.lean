import DeclTree.Span
/-!
# Diagnostics

A report of one error: a code, a message, labels on places in the source, and
notes. Labels and notes keep the order in which they were added.
-/
namespace DeclTree

/-- The codes of the errors that a declaration can have. -/
inductive ErrorCode
  | missingPart
  | unknownHint
  | unknownVisibility
deriving DecidableEq, Inhabited

/-- The code as it is printed. -/
def ErrorCode.text : ErrorCode → String
  | .missingPart => "E0001"
  | .unknownHint => "E0002"
  | .unknownVisibility => "E0003"

theorem ErrorCode.text_injective {a b : ErrorCode} (h : a.text = b.text) : a = b := by
  revert h; cases a <;> cases b <;> decide

/-- A message about one place. -/
structure Label where
  span : Span := {}
  message : String
deriving DecidableEq, Inhabited

/-- The report of an error. -/
structure Diagnostic where
  code : ErrorCode
  message : String := ""
  labels : List Label := []
  notes : List String := []
deriving DecidableEq, Inhabited

namespace Diagnostic

/-- Adds a label after those there are. -/
def addLabel (d : Diagnostic) (l : Label) : Diagnostic := { d with labels := d.labels ++ [l] }

/-- Adds a note after those there are. -/
def addNote (d : Diagnostic) (note : String) : Diagnostic := { d with notes := d.notes ++ [note] }

/-- The report's first line. -/
def text (d : Diagnostic) : String := "error[" ++ d.code.text ++ "]: " ++ d.message

end Diagnostic

end DeclTree
