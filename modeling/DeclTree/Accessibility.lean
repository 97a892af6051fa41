import DeclTree.Fault
import DeclTree.Source
import DeclTree.Text.Caseless
import DeclTree.Text.WhiteSpace
/-!
# Accessibility

Who may use a declared symbol. Locality comes first: a local symbol is private
and its visibility keyword is not even looked at. Any other symbol has the
accessibility of its keyword, and without a keyword a default.
-/
namespace DeclTree

/-- Who may use a symbol. -/
inductive Accessibility
  | priv
  | pub
  | friend
  | global
deriving DecidableEq, Inhabited

namespace Accessibility

/-- Every accessibility. -/
def all : List Accessibility := [.priv, .pub, .friend, .global]

/-- The word for it in a declaration. -/
def keyword : Accessibility → String
  | .priv => "Private"
  | .pub => "Public"
  | .friend => "Friend"
  | .global => "Global"

/-- The accessibility that a word stands for, in whatever case it is written. -/
def ofKeyword? (word : String) : Option Accessibility :=
  all.find? fun a => Text.eqCaseless a.keyword word

/-- What a visibility clause says. White space around its keyword does not
count; a fault quotes the clause with it. -/
def ofClause (clause : Source.Excerpt) : Except Fault Accessibility :=
  match ofKeyword? (Text.trim clause.text) with
  | some a => .ok a
  | none => .error (.unknownVisibility clause.text clause.span)

/-- The accessibility of a symbol. -/
def resolve (isLocal : Bool) (visibility : Option Source.Excerpt) (default : Accessibility) :
    Except Fault Accessibility :=
  if isLocal then .ok .priv
  else
    match visibility with
    | none => .ok default
    | some clause => ofClause clause

theorem mem_all (a : Accessibility) : a ∈ all := by cases a <;> decide

@[simp] theorem resolve_local (v : Option Source.Excerpt) (d : Accessibility) :
    resolve true v d = .ok .priv := rfl
@[simp] theorem resolve_none (d : Accessibility) : resolve false none d = .ok d := by
  simp [resolve]
@[simp] theorem resolve_some (clause : Source.Excerpt) (d : Accessibility) :
    resolve false (some clause) d = ofClause clause := by simp [resolve]

/-- No two keywords are spelled alike, whatever the case. -/
theorem foldCase_keyword_injective {a b : Accessibility}
    (h : Text.foldCase a.keyword = Text.foldCase b.keyword) : a = b := by
  revert h; cases a <;> cases b <;> decide +kernel

end Accessibility

end DeclTree
