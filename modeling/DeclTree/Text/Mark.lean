/-!
# Cutting at a mark

Texts that are put together around a mark come apart again where one of the two
parts is known not to hold it.
-/
namespace DeclTree.Text

variable {mark : Char} {p q p' q' : List Char}

/-- The part of a text up to its first mark, and the rest. -/
theorem split_at_mark (hp : mark ∉ p) (q : List Char) :
    (p ++ mark :: q).takeWhile (· ≠ mark) = p ∧ (p ++ mark :: q).dropWhile (· ≠ mark) = mark :: q := by
  have hc : ∀ c ∈ p, decide (c ≠ mark) = true := fun c hc => decide_eq_true fun e => hp (e ▸ hc)
  rw [List.takeWhile_append_of_pos hc, List.dropWhile_append_of_pos hc]
  simp

/-- A text is cut at its first mark in one way. -/
theorem eq_of_first_mark (hp : mark ∉ p) (hp' : mark ∉ p') (h : p ++ mark :: q = p' ++ mark :: q') :
    p = p' ∧ q = q' := by
  have hfront := congrArg (List.takeWhile (· ≠ mark)) h
  have hrest := congrArg (List.dropWhile (· ≠ mark)) h
  rw [(split_at_mark hp q).1, (split_at_mark hp' q').1] at hfront
  rw [(split_at_mark hp q).2, (split_at_mark hp' q').2] at hrest
  exact ⟨hfront, (List.cons.inj hrest).2⟩

/-- A text is cut at its last mark in one way. -/
theorem eq_of_last_mark (hq : mark ∉ q) (hq' : mark ∉ q') (h : p ++ mark :: q = p' ++ mark :: q') :
    p = p' ∧ q = q' := by
  have hr := congrArg List.reverse h
  simp only [List.reverse_append, List.reverse_cons, List.append_assoc, List.singleton_append] at hr
  obtain ⟨hqs, hps⟩ := eq_of_first_mark (mt List.mem_reverse.1 hq) (mt List.mem_reverse.1 hq') hr
  exact ⟨List.reverse_inj.1 hps, List.reverse_inj.1 hqs⟩

end DeclTree.Text
