/-!
# Places in the source text

A span is a pair of offsets. Nothing asks that the first be the smaller one:
spans are carried through as they were given.
-/
namespace DeclTree

/-- The stretch of source text from offset `start` up to offset `stop`. -/
structure Span where
  start : UInt32 := 0
  stop : UInt32 := 0
deriving DecidableEq, Inhabited

/-- The two offsets in decimal, with two dots between them. -/
def Span.text (s : Span) : String := s.start.toNat.repr ++ ".." ++ s.stop.toNat.repr

end DeclTree
