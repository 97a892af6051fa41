import DeclTree.Tree.Preorder
import Mathlib.Data.List.Lex
/-!
# Addresses

A place in a tree has an address: which child to go to, step by step, on the way
down from the root. Equal nodes may stand at several places, so what is said of
places is said of addresses. Pre-order is the order of the addresses as words:
a node comes before all that is under it, and what is under one child before
what is under the next.
-/
namespace DeclTree.Node

/-- The node at an address, unless the address leaves the tree. -/
def at? : Node → List Nat → Option Node
  | n, [] => some n
  | n, i :: p => n.children[i]?.bind fun c => c.at? p

mutual

/-- The node and all nodes under it in pre-order, each with its address. -/
def addressed : Node → List (List Nat × Node)
  | ⟨s, c, e, ns⟩ => ([], ⟨s, c, e, ns⟩) :: addressedFrom 0 ns

/-- Several trees that are children of one node, numbered from `i` on, with
addresses that start at that node. -/
def addressedFrom (i : Nat) : List Node → List (List Nat × Node)
  | [] => []
  | n :: ns => n.addressed.map (fun x => (i :: x.1, x.2)) ++ addressedFrom (i + 1) ns

end

@[simp] theorem at?_nil (n : Node) : n.at? [] = some n := by rw [at?]

@[simp] theorem at?_cons (n : Node) (i : Nat) (p : List Nat) :
    n.at? (i :: p) = n.children[i]?.bind fun c => c.at? p := by rw [at?]

theorem at?_append (n : Node) (p q : List Nat) : n.at? (p ++ q) = (n.at? p).bind fun m => m.at? q := by
  induction p generalizing n with
  | nil => simp
  | cons i p ih => cases h : n.children[i]? <;> simp [h, ih]

theorem addressed_eq (n : Node) : n.addressed = ([], n) :: addressedFrom 0 n.children := by
  cases n; rw [addressed]

theorem addressedFrom_eq_flatMap (i : Nat) (ns : List Node) :
    addressedFrom i ns = (ns.zipIdx i).flatMap fun x => x.1.addressed.map fun y => (x.2 :: y.1, y.2) := by
  induction ns generalizing i with
  | nil => rw [addressedFrom]; rfl
  | cons n ns ih => rw [addressedFrom, ih]; rfl

/-! ## Every place once, in order -/

/-- Without the addresses, the order is the pre-order. -/
theorem map_snd_addressed (n : Node) : n.addressed.map (·.2) = n.preorder := by
  induction n using Node.induction with
  | step n ih =>
    rw [addressed_eq, preorder_eq, List.map_cons, addressedFrom_eq_flatMap, preorderAll_eq_flatMap,
      List.map_flatMap]
    have hc : ∀ x ∈ n.children.zipIdx 0, (x.1.addressed.map fun y => (x.2 :: y.1, y.2)).map (·.2) = x.1.preorder := by
      intro x hx
      rw [← ih x.1 (List.fst_mem_of_mem_zipIdx hx), List.map_map]
      rfl
    rw [List.flatMap_congr hc, ← List.flatMap_map Prod.fst, List.zipIdx_map_fst]

/-- The addresses of the tree's nodes are those that do not leave the tree. -/
theorem mem_addressed {n : Node} {x : List Nat × Node} : x ∈ n.addressed ↔ n.at? x.1 = some x.2 := by
  induction n using Node.induction generalizing x with
  | step n ih =>
    obtain ⟨p, m⟩ := x
    rw [addressed_eq, addressedFrom_eq_flatMap]
    cases p with
    | nil => simp [eq_comm]
    | cons i p =>
      simp only [List.mem_cons, Prod.mk.injEq, reduceCtorEq, false_and, false_or, List.mem_flatMap,
        List.mem_map, List.cons.injEq, at?_cons, Option.bind_eq_some_iff, Prod.exists]
      constructor
      · rintro ⟨c, j, hc, q, m', hq, ⟨rfl, rfl⟩, rfl⟩
        have hj := List.mem_zipIdx_iff_getElem?.1 hc
        exact ⟨c, hj, (ih c (List.mem_of_getElem? hj)).1 hq⟩
      · rintro ⟨c, hj, hq⟩
        have hc : (c, i) ∈ n.children.zipIdx 0 := List.mem_zipIdx_iff_getElem?.2 hj
        exact ⟨c, i, hc, p, m, (ih c (List.mem_of_getElem? hj)).2 hq, ⟨rfl, rfl⟩, rfl⟩

/-- Addresses grow from each node to the next. -/
theorem pairwise_addressed (n : Node) : n.addressed.Pairwise fun x y => x.1 < y.1 := by
  induction n using Node.induction with
  | step n ih =>
    -- Children are numbered from left to right.
    have hnumbers : (n.children.zipIdx 0).Pairwise fun x y => x.2 < y.2 := by
      rw [← List.pairwise_map, List.zipIdx_map_snd]
      exact List.pairwise_lt_range' 1
    rw [addressed_eq, addressedFrom_eq_flatMap, List.pairwise_cons, List.pairwise_flatMap]
    refine ⟨?_, ?_, ?_⟩
    · intro y hy
      obtain ⟨x, -, hy⟩ := List.mem_flatMap.1 hy
      obtain ⟨z, -, rfl⟩ := List.mem_map.1 hy
      exact List.nil_lt_cons _ _
    · intro x hx
      rw [List.pairwise_map]
      refine (ih x.1 (List.fst_mem_of_mem_zipIdx hx)).imp fun h => ?_
      exact List.cons_lt_cons_iff.2 (.inr ⟨rfl, h⟩)
    · refine hnumbers.imp ?_
      intro x y hxy u hu v hv
      obtain ⟨z, -, rfl⟩ := List.mem_map.1 hu
      obtain ⟨w, -, rfl⟩ := List.mem_map.1 hv
      exact List.cons_lt_cons_iff.2 (.inl hxy)

/-- The places under the root are those with an address that is not empty. -/
theorem mem_addressedFrom_children {n : Node} {x : List Nat × Node} :
    x ∈ addressedFrom 0 n.children ↔ x.1 ≠ [] ∧ n.at? x.1 = some x.2 := by
  have hroot := pairwise_addressed n
  rw [addressed_eq, List.pairwise_cons] at hroot
  constructor
  · intro hx
    refine ⟨?_, mem_addressed.1 (by rw [addressed_eq]; exact List.mem_cons_of_mem _ hx)⟩
    intro h
    have hlt := hroot.1 x hx
    rw [h] at hlt
    exact absurd hlt (List.not_lt_nil _)
  · rintro ⟨hne, hx⟩
    have hmem := mem_addressed.2 hx
    rw [addressed_eq] at hmem
    rcases List.mem_cons.1 hmem with rfl | h
    · exact absurd rfl hne
    · exact h

theorem map_snd_addressedFrom_children (n : Node) :
    (addressedFrom 0 n.children).map (·.2) = preorderAll n.children := by
  have h := map_snd_addressed n
  rw [addressed_eq, preorder_eq, List.map_cons] at h
  exact (List.cons.inj h).2

/-- The list goes through all places under the root, each once and in the order
of their addresses, and has the node that stands there. -/
def CoversBelow (root : Node) (ns : List Node) : Prop :=
  ∃ addresses : List (List Nat), addresses.Pairwise (· < ·) ∧
    (∀ p, p ∈ addresses ↔ p ≠ [] ∧ root.at? p ≠ none) ∧ addresses.map root.at? = ns.map some

theorem coversBelow_preorderAll (n : Node) : n.CoversBelow (preorderAll n.children) := by
  refine ⟨(addressedFrom 0 n.children).map (·.1), ?_, ?_, ?_⟩
  · have h := pairwise_addressed n
    rw [addressed_eq, List.pairwise_cons] at h
    exact List.pairwise_map.2 h.2
  · intro p
    rw [List.mem_map]
    constructor
    · rintro ⟨x, hx, rfl⟩
      obtain ⟨hne, hat⟩ := mem_addressedFrom_children.1 hx
      exact ⟨hne, by simp [hat]⟩
    · rintro ⟨hne, hat⟩
      obtain ⟨m, hm⟩ := Option.ne_none_iff_exists'.1 hat
      exact ⟨(p, m), mem_addressedFrom_children.2 ⟨hne, hm⟩, rfl⟩
  · rw [← map_snd_addressedFrom_children, List.map_map, List.map_map]
    refine List.map_congr_left fun x hx => ?_
    exact (mem_addressedFrom_children.1 hx).2

/-- A tree of a list has no more nodes than the list. -/
theorem length_preorder_le_of_mem {c : Node} {ns : List Node} (h : c ∈ ns) :
    c.preorder.length ≤ (preorderAll ns).length := by
  obtain ⟨before, after, rfl⟩ := List.append_of_mem h
  rw [preorderAll_append, preorderAll_cons, List.length_append, List.length_append]
  omega

/-- A node of a tree has no more nodes under it than the root. -/
theorem length_preorder_le {n m : Node} (h : m ∈ n.preorder) : m.preorder.length ≤ n.preorder.length := by
  induction n using Node.induction with
  | step n ih =>
    rw [preorder_eq, List.mem_cons, preorderAll_eq_flatMap] at h
    rcases h with rfl | h
    · exact Nat.le_refl _
    · obtain ⟨c, hc, hm⟩ := List.mem_flatMap.1 h
      have hle := (ih c hc hm).trans (length_preorder_le_of_mem hc)
      rw [preorder_eq n, List.length_cons]
      omega

/-- No node stands under itself. -/
theorem not_mem_preorderAll_children (n : Node) : n ∉ preorderAll n.children := by
  intro h
  rw [preorderAll_eq_flatMap] at h
  obtain ⟨c, hc, hn⟩ := List.mem_flatMap.1 h
  have hle := (length_preorder_le hn).trans (length_preorder_le_of_mem hc)
  rw [preorder_eq n, List.length_cons] at hle
  omega

/-! ## The parent of a place -/

/-- Between the address of a node and that of its child stand the addresses that
lead through an earlier child. -/
theorem exists_of_between {p r : List Nat} {i : Nat} (hp : p < r) (hr : r < p ++ [i]) :
    ∃ j q, r = p ++ j :: q ∧ j < i := by
  induction p generalizing r with
  | nil =>
    cases r with
    | nil => exact absurd hp (List.not_lt_nil _)
    | cons j q =>
      rcases List.cons_lt_cons_iff.1 hr with h | ⟨-, h⟩
      · exact ⟨j, q, rfl, h⟩
      · exact absurd h (List.not_lt_nil _)
  | cons k p ih =>
    cases r with
    | nil => exact absurd hp (List.not_lt_nil _)
    | cons j q =>
      -- The first steps agree, since either of the two comparisons rules out one order.
      rcases List.cons_lt_cons_iff.1 hp with h | ⟨rfl, h⟩
      · rcases List.cons_lt_cons_iff.1 hr with h' | ⟨rfl, -⟩
        · omega
        · omega
      · rcases List.cons_lt_cons_iff.1 hr with h' | ⟨-, h'⟩
        · omega
        · obtain ⟨j', q', rfl, hj⟩ := ih h h'
          exact ⟨j', q', rfl, hj⟩

/-- A place that is not the root has a parent. -/
theorem exists_parent_address {n m : Node} {p : List Nat} (h : n.at? p = some m) (hp : p ≠ []) :
    ∃ q i parent, p = q ++ [i] ∧ n.at? q = some parent ∧ parent.children[i]? = some m := by
  refine ⟨p.dropLast, p.getLast hp, ?_⟩
  rw [← List.dropLast_append_getLast hp, at?_append] at h
  obtain ⟨parent, hq, hi⟩ := Option.bind_eq_some_iff.1 h
  rw [at?_cons, Option.bind_eq_some_iff] at hi
  obtain ⟨c, hc, hcm⟩ := hi
  rw [at?_nil, Option.some.injEq] at hcm
  subst hcm
  exact ⟨parent, (List.dropLast_append_getLast hp).symm, hq, hc⟩

section Splits
variable {n : Node} {front after : List (List Nat × Node)} {x : List Nat × Node}

/-- The places with smaller addresses come before. -/
theorem mem_front_iff (h : n.addressed = front ++ x :: after) {y : List Nat × Node} :
    y ∈ front ↔ y ∈ n.addressed ∧ y.1 < x.1 := by
  have hsorted := pairwise_addressed n
  rw [h, List.pairwise_append, List.pairwise_cons] at hsorted
  obtain ⟨-, ⟨hafter, -⟩, hbefore⟩ := hsorted
  rw [h]
  constructor
  · intro hy
    exact ⟨List.mem_append_left _ hy, hbefore y hy x List.mem_cons_self⟩
  · rintro ⟨hy, hlt⟩
    rcases List.mem_append.1 hy with hy | hy
    · exact hy
    · rcases List.mem_cons.1 hy with rfl | hy
      · exact absurd hlt (List.lt_irrefl _)
      · exact absurd (hafter y hy) (List.lt_asymm hlt)

/-- The parent of a place that is not the root comes before it, and between the
two stand only nodes under earlier children of the parent. -/
theorem exists_parent (h : n.addressed = front ++ x :: after) (hf : front ≠ []) :
    ∃ before parent between i, front = before ++ parent :: between ∧ x.1 = parent.1 ++ [i] ∧
      parent.2.children[i]? = some x.2 ∧
      ∀ y ∈ between, ∃ j c, j < i ∧ parent.2.children[j]? = some c ∧ y.2 ∈ c.preorder := by
  have hne : x.1 ≠ [] := by
    intro he
    obtain ⟨y, hy⟩ := List.exists_mem_of_ne_nil front hf
    have hlt := ((mem_front_iff h).1 hy).2
    rw [he] at hlt
    exact absurd hlt (List.not_lt_nil _)
  have hat : n.at? x.1 = some x.2 := mem_addressed.1 (by simp [h])
  obtain ⟨p, i, m, hx, hm, hi⟩ := exists_parent_address hat hne
  have hfront : (p, m) ∈ front := by
    refine (mem_front_iff h).2 ⟨mem_addressed.2 hm, ?_⟩
    have hlt : p ++ [] < p ++ [i] := List.append_left_lt (List.nil_lt_cons i [])
    rwa [List.append_nil, ← hx] at hlt
  obtain ⟨before, between, rfl⟩ := List.append_of_mem hfront
  refine ⟨before, (p, m), between, i, rfl, hx, hi, ?_⟩
  intro y hy
  have hsorted := pairwise_addressed n
  rw [h, List.pairwise_append, List.pairwise_append, List.pairwise_cons] at hsorted
  have hpy : p < y.1 := hsorted.1.2.1.1 y hy
  obtain ⟨hmem, hyx⟩ := (mem_front_iff h).1 (List.mem_append_right _ (List.mem_cons_of_mem _ hy))
  obtain ⟨j, q, hq, hj⟩ := exists_of_between hpy (hx ▸ hyx)
  have hy := mem_addressed.1 hmem
  rw [hq, at?_append, hm, Option.bind_some, at?_cons] at hy
  obtain ⟨c, hc, hcq⟩ := Option.bind_eq_some_iff.1 hy
  refine ⟨j, c, hj, hc, ?_⟩
  rw [← map_snd_addressed]
  exact List.mem_map.2 ⟨(q, y.2), mem_addressed.2 hcq, rfl⟩

end Splits

end DeclTree.Node
