import DeclTree.Diagnostic
/-!
# Faults

Why a declaration cannot be resolved. Each fault breaks a promise of whoever
read the source text: text that the language accepts has none of them. A fault
knows the place it is about and makes a diagnostic of itself.
-/
namespace DeclTree

/-- A part that a declaration cannot do without. -/
inductive Part
  | identifier
  | typeName
  | constantValue
deriving DecidableEq, Inhabited

/-- What a message calls the part. -/
def Part.text : Part → String
  | .identifier => "identifier"
  | .typeName => "type name"
  | .constantValue => "constant value"

theorem Part.text_injective {a b : Part} (h : a.text = b.text) : a = b := by
  revert h; cases a <;> cases b <;> decide

/-- Why a declaration cannot be resolved, and where. -/
inductive Fault
  | missing (part : Part) (span : Span)
  | unknownHint (hint : String) (span : Span)
  | unknownVisibility (keyword : String) (span : Span)
deriving DecidableEq, Inhabited

namespace Fault

/-- The place that the fault is about. -/
def span : Fault → Span
  | .missing _ s | .unknownHint _ s | .unknownVisibility _ s => s

/-- The code of the fault's cause. -/
def code : Fault → ErrorCode
  | .missing .. => .missingPart
  | .unknownHint .. => .unknownHint
  | .unknownVisibility .. => .unknownVisibility

/-- The fault in one sentence. Quoted source text stands in it as it is. -/
def message : Fault → String
  | .missing part s => "declaration fragment at " ++ s.text ++ " is missing its " ++ part.text
  | .unknownHint hint s => "unknown type hint `" ++ hint ++ "` at " ++ s.text
  | .unknownVisibility keyword s => "unknown visibility keyword `" ++ keyword ++ "` at " ++ s.text

/-- What should have stood at the fault's place. -/
def expectation : Fault → String
  | .missing part _ => "expected " ++ part.text ++ " here"
  | .unknownHint .. => "not one of `% & @ ! # $`"
  | .unknownVisibility .. => "not one of Public, Private, Friend, Global"

/-- The promise that the fault breaks. -/
def explanation : Fault → String
  | .missing .. => "the parser accepted a declaration without a required part"
  | .unknownHint .. => "the grammar should only produce known type hints"
  | .unknownVisibility .. => "the grammar should only produce known visibility keywords"

/-- The fault's report: its message, a label at its place and a note. -/
def diagnostic (f : Fault) : Diagnostic where
  code := f.code
  message := f.message
  labels := [⟨f.span, f.expectation⟩]
  notes := [f.explanation]

@[simp] theorem diagnostic_code (f : Fault) : f.diagnostic.code = f.code := rfl
@[simp] theorem diagnostic_message (f : Fault) : f.diagnostic.message = f.message := rfl

end Fault

/-- The part that was found, or the fault that it is missing at `place`. -/
def Part.require {α : Type} (part : Part) (place : Span) : Option α → Except Fault α
  | some found => .ok found
  | none => .error (.missing part place)

@[simp] theorem Part.require_some {α : Type} (part : Part) (place : Span) (found : α) :
    part.require place (some found) = .ok found := rfl
@[simp] theorem Part.require_none {α : Type} (part : Part) (place : Span) :
    part.require place (none : Option α) = .error (.missing part place) := rfl

/-- Two outcomes, each a value or a fault, can be compared. -/
instance Fault.decEqOutcome {α : Type} [DecidableEq α] : DecidableEq (Except Fault α)
  | .ok a, .ok b => decidable_of_iff (a = b) ⟨congrArg Except.ok, Except.ok.inj⟩
  | .error f, .error g => decidable_of_iff (f = g) ⟨congrArg Except.error, Except.error.inj⟩
  | .ok _, .error _ => isFalse nofun
  | .error _, .ok _ => isFalse nofun

end DeclTree
