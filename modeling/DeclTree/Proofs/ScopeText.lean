import DeclTree.Text.Mark
import DeclTree.Proofs.Scoping
import Mathlib.Data.List.TakeWhile
/-!
# Reading a scope's text

The text of a scope is read by splitting it at its first dot. That gives the
scope back exactly if its module's name is there and has no dot, and its
procedure's name, if it has one, is there too: dots further on stay in the
procedure's name. In a built tree every procedure has a name, so it is the
module's name alone that decides, for all nodes at once.
-/
namespace DeclTree

namespace Scope

/-- The names of the scope can be told apart in its text. -/
structure Readable (s : Scope) : Prop where
  moduleName_ne : s.moduleName ≠ ""
  dot_not_mem : '.' ∉ s.moduleName.toList
  procedureName_ne : s.procedureName? ≠ some ""

/-- A text without a dot names a module, unless it is empty. -/
theorem parse?_of_not_mem {t : String} (h : '.' ∉ t.toList) :
    parse? t = if t.toList = [] then none else some (.module t) := by
  have hc : ∀ c ∈ t.toList, decide (c ≠ '.') = true := fun c hc => decide_eq_true fun e => h (e ▸ hc)
  simp only [parse?, List.takeWhile_eq_self_iff.2 hc, List.dropWhile_eq_nil_iff.2 hc]

/-- A text with a dot names a procedure by what stands before and after the
first one, unless either is empty. -/
theorem parse?_of_append {t : String} {m p : List Char} (h : '.' ∉ m) (ht : t.toList = m ++ '.' :: p) :
    parse? t =
      if m = [] ∨ p = [] then none else some (.procedure (String.ofList m) (String.ofList p)) := by
  simp only [parse?, ht, (Text.split_at_mark h p).1, (Text.split_at_mark h p).2]

theorem toList_text_procedure (m p : String) :
    (procedure m p).text.toList = m.toList ++ '.' :: p.toList := by
  simp [text]

/-- The scope that is read from a text is the one with that text whose names
can be told apart in it. -/
theorem parse?_eq_some_iff {t : String} {s : Scope} : parse? t = some s ↔ s.text = t ∧ s.Readable := by
  constructor
  · intro h
    by_cases hdot : '.' ∈ t.toList
    · obtain ⟨m, p, ht, hm⟩ := List.eq_append_cons_of_mem hdot
      rw [parse?_of_append hm ht] at h
      split at h
      · cases h
      · rename_i hne
        obtain ⟨hne, hpe⟩ := not_or.1 hne
        cases h
        refine ⟨?_, ?_, ?_, ?_⟩
        · rw [← String.toList_inj, toList_text_procedure, ht, String.toList_ofList, String.toList_ofList]
        · simpa using hne
        · simpa using hm
        · simpa using hpe
    · rw [parse?_of_not_mem hdot] at h
      split at h
      · cases h
      · rename_i hne
        cases h
        refine ⟨rfl, ?_, hdot, ?_⟩
        · simpa using hne
        · simp
  · rintro ⟨rfl, hs⟩
    cases s with
    | module m =>
      have hne : m.toList ≠ [] := by simpa using hs.moduleName_ne
      have hdot : '.' ∉ m.toList := hs.dot_not_mem
      rw [text, parse?_of_not_mem hdot, if_neg hne]
    | procedure m p =>
      have hm : m.toList ≠ [] := by simpa using hs.moduleName_ne
      have hp : p.toList ≠ [] := by simpa using hs.procedureName_ne
      have hne : ¬ (m.toList = [] ∨ p.toList = []) := not_or.2 ⟨hm, hp⟩
      have hdot : '.' ∉ m.toList := hs.dot_not_mem
      rw [parse?_of_append hdot (toList_text_procedure m p), if_neg hne, String.ofList_toList,
        String.ofList_toList]

/-- A scope is read back from its own text exactly if its names can be told
apart in it. -/
theorem parse?_text_iff {s : Scope} : parse? s.text = some s ↔ s.Readable := by
  rw [parse?_eq_some_iff]
  exact and_iff_right rfl

end Scope

namespace Source
variable {m : Module} {settings : Settings} {root : Node}

/-! ## Procedures of built trees have names -/

theorem survey_ne_empty (h : m.declare settings = .ok root) : ∀ part ∈ m.survey, part.1 ≠ some "" := by
  obtain ⟨children, hc, -⟩ := Module.declare_eq_ok.1 h
  intro part hpart
  obtain ⟨item, hitem, hpart⟩ := List.mem_flatMap.1 hpart
  have hbuilt := forall_of_forall₂ hc.flip fun n item hn => Exists.intro n hn
  obtain ⟨n, hn⟩ := hbuilt item hitem
  match item with
  | .declaration d =>
    obtain ⟨construct, -, rfl⟩ := List.mem_map.1 hpart
    simp
  | .procedure p =>
    obtain ⟨_, _, _, _, hname, -, -, -, -⟩ := Procedure.declare_eq_ok.1 hn
    obtain ⟨x, hx, hne, -⟩ := declaredName_eq_ok.1 hname
    rcases List.mem_cons.1 hpart with rfl | hpart
    · simp
    · obtain ⟨d, -, hpart⟩ := List.mem_flatMap.1 hpart
      obtain ⟨construct, -, rfl⟩ := List.mem_map.1 hpart
      simpa [hx] using hne

/-- No node of a built tree stands inside a procedure without a name. -/
theorem place_ne_empty (h : m.declare settings = .ok root) : ∀ x ∈ root.located none, x.1 ≠ some "" := by
  have hbelow := forall_of_forall₂ (P := fun x : Option String × Node => x.1 ≠ some "")
    ((List.forall₂_and_left _ _).2 ⟨survey_ne_empty h, surveyed_module h⟩) fun part x hx => hx.2.1 ▸ hx.1
  obtain ⟨children, -, rfl⟩ := Module.declare_eq_ok.1 h
  rw [Node.located_eq]
  exact List.forall_mem_cons.2 ⟨by simp, hbelow⟩

theorem readable_scope_iff (h : m.declare settings = .ok root) {n : Node} (hn : n ∈ root.preorder) :
    n.scope.procedureName? ≠ some "" ∧ (n.scope.Readable ↔ m.name ≠ "" ∧ '.' ∉ m.name.toList) := by
  rw [← Node.map_snd_located root none] at hn
  obtain ⟨x, hx, rfl⟩ := List.mem_map.1 hn
  have hs := scoped_module h x hx
  have hp : x.2.scope.procedureName? ≠ some "" := by
    rw [hs.procedureName.1]
    exact place_ne_empty h x hx
  refine ⟨hp, ?_⟩
  constructor
  · intro hr
    rw [← hs.moduleName.1]
    exact ⟨hr.moduleName_ne, hr.dot_not_mem⟩
  · rintro ⟨hne, hdot⟩
    rw [← hs.moduleName.1] at hne hdot
    exact ⟨hne, hdot, hp⟩

/-! ## Main theorem -/

/-- In a built tree, each node's scope is read back from its text exactly if the
module's name is not empty and has no dot. Otherwise no node's is: its text is
not a scope's, or another scope's. -/
theorem scope_read_back_iff (h : m.declare settings = .ok root) :
    ∀ n ∈ root.preorder,
      (Scope.parse? n.scope.text = some n.scope ↔ m.name ≠ "" ∧ '.' ∉ m.name.toList) ∧
      n.scope.procedureName? ≠ some "" ∧
      (m.name = "" ∨ '.' ∈ m.name.toList →
        Scope.parse? n.scope.text = none ∨ ∃ s, Scope.parse? n.scope.text = some s ∧ s ≠ n.scope) := by
  intro n hn
  obtain ⟨hp, hr⟩ := readable_scope_iff h hn
  have hiff := Scope.parse?_text_iff.trans hr
  refine ⟨hiff, hp, ?_⟩
  intro hm
  cases hs : Scope.parse? n.scope.text with
  | none => exact .inl rfl
  | some s =>
    refine .inr ⟨s, rfl, ?_⟩
    rintro rfl
    obtain ⟨hne, hdot⟩ := hiff.1 hs
    rcases hm with he | hd
    · exact hne he
    · exact hdot hd

/-- A dot in the module's name moves what follows into the procedure's name.
Under a name without one, every node's scope is read back. -/
theorem scope_read_back_iff_of_ledger : ∃ root root', ledger.declare {} = .ok root ∧
    Module.declare { ledger with name := "Ledger" } {} = .ok root' ∧
    (∃ n ∈ root.preorder, n.scope = .procedure "Ledger.Main" "Sum" ∧
      Scope.parse? n.scope.text = some (.procedure "Ledger" "Main.Sum") ∧
      Scope.parse? n.scope.text ≠ some n.scope) ∧
    ∀ n ∈ root'.preorder, Scope.parse? n.scope.text = some n.scope := by
  obtain ⟨root, h, n, hn, hs⟩ : ∃ root, ledger.declare {} = .ok root ∧
      ∃ n, root.preorder[6]? = some n ∧ n.scope = .procedure "Ledger.Main" "Sum" := ⟨_, rfl, _, rfl, rfl⟩
  obtain ⟨root', h'⟩ : ∃ root', Module.declare { ledger with name := "Ledger" } {} = .ok root' := ⟨_, rfl⟩
  have hn := List.mem_of_getElem? hn
  refine ⟨root, root', h, h', ⟨n, hn, hs, ?_, ?_⟩, ?_⟩
  · rw [hs]
    decide
  · intro he
    have hdot := ((scope_read_back_iff h n hn).1.1 he).2
    exact hdot (by decide)
  · intro n hn
    exact (scope_read_back_iff h' n hn).1.2 ⟨by decide, by decide⟩

end Source

end DeclTree
