/-!
# White space

The characters that have the Unicode property White_Space, and text without
them at its two ends. The class is wider than `Char.isWhitespace`, which knows
four characters of it.
-/
namespace DeclTree.Text

/-- The first and the last code point of each run of characters with the
property White_Space. -/
def whiteSpaceRanges : List (Nat × Nat) :=
  [(0x09, 0x0D), (0x20, 0x20), (0x85, 0x85), (0xA0, 0xA0), (0x1680, 0x1680),
    (0x2000, 0x200A), (0x2028, 0x2029), (0x202F, 0x202F), (0x205F, 0x205F), (0x3000, 0x3000)]

/-- There are twenty-five such characters. -/
example : (whiteSpaceRanges.map fun range => range.2 + 1 - range.1).sum = 25 := rfl

/-- The character has the property White_Space. -/
def isWhiteSpace (c : Char) : Bool :=
  whiteSpaceRanges.any fun range => range.1 ≤ c.toNat && c.toNat ≤ range.2

/-- The characters without the white space at both ends. -/
def trimChars (cs : List Char) : List Char :=
  ((cs.dropWhile isWhiteSpace).reverse.dropWhile isWhiteSpace).reverse

/-- The text without the white space at both ends. -/
def trim (s : String) : String := String.ofList (trimChars s.toList)

@[simp] theorem toList_trim (s : String) : (trim s).toList = trimChars s.toList :=
  String.toList_ofList

/-- Trimming takes away white space only, and only at the ends. -/
theorem exists_append_trimChars (cs : List Char) :
    ∃ u v, (∀ c ∈ u, isWhiteSpace c) ∧ (∀ c ∈ v, isWhiteSpace c) ∧ cs = u ++ trimChars cs ++ v := by
  refine ⟨cs.takeWhile isWhiteSpace, ((cs.dropWhile isWhiteSpace).reverse.takeWhile isWhiteSpace).reverse,
    List.all_eq_true.1 List.all_takeWhile, ?_, ?_⟩
  · intro c hc
    exact List.all_eq_true.1 List.all_takeWhile c (List.mem_reverse.1 hc)
  · rw [trimChars, List.append_assoc, ← List.reverse_append, List.takeWhile_append_dropWhile,
      List.reverse_reverse, List.takeWhile_append_dropWhile]

end DeclTree.Text
