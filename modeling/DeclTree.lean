import DeclTree.Project
import DeclTree.Tree.Preorder
import DeclTree.Tree.Walk
import DeclTree.Proofs.Checks
import DeclTree.Proofs.Outline
import DeclTree.Proofs.Kept
import DeclTree.Proofs.Accounting
import DeclTree.Proofs.Scoping
import DeclTree.Proofs.Locality
import DeclTree.Proofs.Defaults
import DeclTree.Proofs.Edits
import DeclTree.Proofs.TypeSources
import DeclTree.Proofs.Nesting
import DeclTree.Proofs.ScopeText
import DeclTree.Proofs.Visits
import DeclTree.Proofs.ChildCounts
import DeclTree.Proofs.LetterCase
import DeclTree.Proofs.Lookup
import DeclTree.Proofs.ScopeForms
import DeclTree.Proofs.Keywords
import DeclTree.Proofs.Reports
