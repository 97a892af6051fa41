import DeclTree.Accessibility
/-!
# Settings

What a build does where the source leaves a choice: the accessibility of a
symbol outside procedures that has no visibility keyword, for each sort of
symbol, and whether modules are built side by side.
-/
namespace DeclTree

/-- The choices of a build. -/
structure Settings where
  variableDefault : Accessibility := .pub
  constantDefault : Accessibility := .priv
  procedureDefault : Accessibility := .pub
  parallel : Bool := true
deriving DecidableEq, Inhabited

end DeclTree
