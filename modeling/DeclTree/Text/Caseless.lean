/-!
# Text up to letter case

Keywords and module names are compared without regard to the case of the
letters A to Z. Every other character stands for itself, so letters outside
ASCII match only their own spelling.
-/
namespace DeclTree.Text

/-- The characters of a text with the capitals A to Z made small. -/
def foldCase (s : String) : List Char := s.toList.map Char.toLower

/-- The texts differ at most in the case of the letters A to Z. -/
def eqCaseless (a b : String) : Bool := foldCase a == foldCase b

theorem eqCaseless_iff {a b : String} : eqCaseless a b ↔ foldCase a = foldCase b := beq_iff_eq

end DeclTree.Text
