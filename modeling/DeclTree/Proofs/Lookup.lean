import DeclTree.Proofs.LetterCase
import DeclTree.Proofs.Scoping
import DeclTree.Proofs.Accounting
/-!
# Looking a module up

A module is looked up by its name, letter case aside. The answer is the tree of
the first module of that name that could be built, in the order of the project.
Modules at fault and nodes of other kinds are passed over.
-/
namespace DeclTree

/-- The first member of a list that has a property. -/
def FirstWith {α : Type} (P : α → Prop) (l : List α) (a : α) : Prop :=
  ∃ before after, l = before ++ a :: after ∧ P a ∧ ∀ b ∈ before, ¬ P b

theorem find?_eq_some_iff_firstWith {α : Type} {test : α → Bool} {P : α → Prop} (h : ∀ a, test a ↔ P a)
    {l : List α} {a : α} : l.find? test = some a ↔ FirstWith P l a := by
  simp only [List.find?_eq_some_iff_append, FirstWith, Bool.not_eq_true', ← Bool.not_eq_true, h]
  constructor
  · rintro ⟨ha, before, after, hl, hb⟩
    exact ⟨before, after, hl, ha, hb⟩
  · rintro ⟨before, after, hl, ha, hb⟩
    exact ⟨ha, before, after, hl, hb⟩

/-- A member without the property makes no difference. -/
theorem find?_passes_over {α : Type} {test : α → Bool} {P : α → Prop} (h : ∀ a, test a ↔ P a) {a : α}
    (ha : ¬ P a) (before after : List α) : (before ++ a :: after).find? test = (before ++ after).find? test := by
  rw [List.find?_append, List.find?_cons_of_neg (mt (h a).1 ha), ← List.find?_append]

namespace Project
variable {q : String} {settings : Settings}

/-! ## Among given trees -/

/-- The node is a module's, and the module has this name but for letter case. -/
def Named (q : String) (n : Node) : Prop := ∃ name, n.entity = .module name ∧ Text.SameLetters name q

theorem named_iff (n : Node) : (n.entity.moduleName?.any fun m => Text.eqCaseless m q) ↔ Named q n := by
  obtain ⟨_, _, e, _⟩ := n
  cases e <;> simp [Named, Entity.moduleName?, Text.eqCaseless_iff_sameLetters]

theorem module?_eq_some_iff {p : Project} {n : Node} : p.module? q = some n ↔ FirstWith (Named q) p.modules n :=
  find?_eq_some_iff_firstWith named_iff

theorem module?_eq_none_iff {p : Project} : p.module? q = none ↔ ∀ n ∈ p.modules, ¬ Named q n := by
  simp only [module?, List.find?_eq_none, named_iff]

/-- A node of another kind is passed over, whatever its name. -/
theorem module?_of_kind_ne {n : Node} (h : n.kind ≠ .module) (before after : List Node)
    (exclusions : List Exclusion) :
    module? ⟨before ++ n :: after, exclusions⟩ q = module? ⟨before ++ after, exclusions⟩ q := by
  refine find?_passes_over named_iff ?_ before after
  rintro ⟨name, he, -⟩
  exact h (by rw [Node.kind, he]; rfl)

/-- Queries with the same letters find the same. -/
theorem module?_congr {q' : String} (h : Text.SameLetters q q') (p : Project) : p.module? q = p.module? q' := by
  have hq := Text.eqCaseless_iff.1 (Text.eqCaseless_iff_sameLetters.2 h)
  simp only [module?, Text.eqCaseless, hq]

/-! ## Among the modules of a project -/

/-- The module can be built and has this name but for letter case. -/
def Available (settings : Settings) (q : String) (m : Source.Module) : Prop :=
  (∃ tree, m.declare settings = .ok tree) ∧ Text.SameLetters m.name q

theorem available_iff (m : Source.Module) :
    (builds settings m && Text.eqCaseless m.name q) ↔ Available settings q m := by
  rw [Bool.and_eq_true, Text.eqCaseless_iff_sameLetters, Available, builds]
  cases m.declare settings <;> simp [Except.isOk, Except.toBool]

/-- A tree has the name of its module. -/
theorem named_of_declare {m : Source.Module} {tree : Node} (h : m.declare settings = .ok tree) :
    Named q tree ↔ Text.SameLetters m.name q := by
  obtain ⟨children, -, rfl⟩ := Source.Module.declare_eq_ok.1 h
  simp [Named]

/-- A module has a tree of the name exactly if it can be built and has the name. -/
theorem any_toOption (m : Source.Module) :
    ((m.declare settings).toOption.any fun n => n.entity.moduleName?.any fun name => Text.eqCaseless name q) =
      (builds settings m && Text.eqCaseless m.name q) := by
  unfold builds
  cases h : m.declare settings with
  | ok tree =>
    rw [Bool.eq_iff_iff]
    exact ((named_iff tree).trans (named_of_declare h)).trans Text.eqCaseless_iff_sameLetters.symm
  | error fault => rfl

/-- Looking a tree up is looking its module up. -/
theorem module?_ofModules (modules : List Source.Module) :
    (ofModules modules settings).module? q =
      (modules.find? fun m => builds settings m && Text.eqCaseless m.name q).bind fun m =>
        (m.declare settings).toOption := by
  simp only [module?, modules_ofModules, List.find?_filterMap, any_toOption]

theorem module?_ofModules_eq_some_iff {modules : List Source.Module} {tree : Node} :
    (ofModules modules settings).module? q = some tree ↔
      ∃ m, FirstWith (Available settings q) modules m ∧ m.declare settings = .ok tree := by
  rw [module?_ofModules, Option.bind_eq_some_iff]
  refine exists_congr fun m => and_congr (find?_eq_some_iff_firstWith available_iff) ?_
  cases m.declare settings <;> simp [Except.toOption]

theorem module?_ofModules_eq_none_iff {modules : List Source.Module} :
    (ofModules modules settings).module? q = none ↔ ∀ m ∈ modules, ¬ Available settings q m := by
  rw [module?_eq_none_iff]
  constructor
  · rintro h m hm ⟨⟨tree, ht⟩, hname⟩
    refine h tree ?_ ((named_of_declare ht).2 hname)
    rw [modules_ofModules]
    exact List.mem_filterMap.2 ⟨m, hm, by rw [ht]; rfl⟩
  · intro h n hn hnamed
    obtain ⟨m, hm, ht⟩ := Source.declare_of_mem_modules hn
    exact h m hm ⟨⟨n, ht⟩, (named_of_declare ht).1 hnamed⟩

/-- A module at fault hides no other. -/
theorem module?_of_error {m : Source.Module} {fault : Fault} (h : m.declare settings = .error fault)
    (before after : List Source.Module) :
    (ofModules (before ++ m :: after) settings).module? q = (ofModules (before ++ after) settings).module? q := by
  have hm : ¬ Available settings q m := by
    rintro ⟨⟨tree, ht⟩, -⟩
    rw [h] at ht
    cases ht
  rw [module?_ofModules, module?_ofModules, find?_passes_over available_iff hm]

/-! ## Main theorem -/

/-- The answer to a look-up is the tree of the first module that can be built and
has the name, letter case aside; without such a module there is none. A module
at fault makes no difference. Among given trees it is the first of a module of
that name, and nodes of other kinds make no difference. Case makes none in the
query either, but every character outside ASCII has to be there as it is. -/
theorem module?_first_of_name (q : String) :
    (∀ modules settings,
      (∀ tree, (ofModules modules settings).module? q = some tree ↔
        ∃ m, FirstWith (Available settings q) modules m ∧ m.declare settings = .ok tree) ∧
      ((ofModules modules settings).module? q = none ↔ ∀ m ∈ modules, ¬ Available settings q m)) ∧
    (∀ before m after settings fault, m.declare settings = .error fault →
      (ofModules (before ++ m :: after) settings).module? q = (ofModules (before ++ after) settings).module? q) ∧
    (∀ p : Project,
      (∀ n, p.module? q = some n ↔ FirstWith (Named q) p.modules n) ∧
      (p.module? q = none ↔ ∀ n ∈ p.modules, ¬ Named q n) ∧
      (∀ q', Text.SameLetters q q' → p.module? q = p.module? q') ∧
      ∀ n, p.module? q = some n →
        ∃ name, n.entity = .module name ∧ Text.outsideAscii name = Text.outsideAscii q) ∧
    ∀ before n after exclusions, n.kind ≠ .module →
      module? ⟨before ++ n :: after, exclusions⟩ q = module? ⟨before ++ after, exclusions⟩ q := by
  refine ⟨fun modules settings => ⟨fun tree => module?_ofModules_eq_some_iff, module?_ofModules_eq_none_iff⟩,
    fun before m after settings fault h => module?_of_error h before after, fun p => ?_,
    fun before n after exclusions h => module?_of_kind_ne h before after exclusions⟩
  refine ⟨fun n => module?_eq_some_iff, module?_eq_none_iff, fun q' h => module?_congr h p, ?_⟩
  intro n h
  obtain ⟨_, _, -, ⟨name, he, hname⟩, -⟩ := module?_eq_some_iff.1 h
  exact ⟨name, he, hname.outsideAscii_eq⟩

/-- A module of this name, with one variable, which has a name or none. -/
def oneVariable (name : String) (identifier : Option Source.Excerpt) : Source.Module where
  name
  items := [.declaration (.variables { entries := [{ identifier }] })]

/-- Of these modules of nearly one name, the first is at fault and the second has
another letter in its name. The other two differ in case only. -/
def spellings : List Source.Module :=
  let x : Source.Excerpt := ⟨⟨4, 5⟩, "x"⟩
  [oneVariable "MÜLL" none, oneVariable "müll" x, oneVariable "mÜll" x, oneVariable "MÜLL" x]

/-- A procedure that has the name, too. -/
def namesake : Node where
  source := ⟨0, 9⟩
  scope := .module "MÜll"
  entity := .procedure ⟨"MÜll", .sub, false, .pub, none⟩

/-- The third module is found, with the first and without it, in either spelling,
and also behind a procedure of the name. -/
theorem module?_first_of_name_of_spellings : ∃ tree, spellings[2].declare {} = .ok tree ∧
    (ofModules spellings {}).module? "MÜll" = some tree ∧
    (ofModules spellings {}).module? "MÜll" = (ofModules (spellings.drop 1) {}).module? "MÜll" ∧
    (ofModules spellings {}).module? "MÜll" = (ofModules spellings {}).module? "mÜLL" ∧
    (∃ name, tree.entity = .module name ∧ Text.outsideAscii name = Text.outsideAscii "MÜll") ∧
    module? ⟨[namesake, tree], []⟩ "MÜll" = module? ⟨[tree], []⟩ "MÜll" := by
  obtain ⟨tree, ht⟩ : ∃ tree, spellings[2].declare {} = .ok tree := ⟨_, rfl⟩
  obtain ⟨fault, hf⟩ : ∃ fault, spellings[0].declare {} = .error fault := ⟨_, rfl⟩
  obtain ⟨built, hidden, given, kinds⟩ := module?_first_of_name "MÜll"
  have hname : Text.SameLetters "mÜll" "MÜll" := Text.eqCaseless_iff_sameLetters.1 (by decide)
  have hbefore : ∀ m ∈ spellings.take 2, ¬ Available {} "MÜll" m := by
    intro m hm h
    have htest : ∀ m ∈ spellings.take 2, ¬ (builds {} m && Text.eqCaseless m.name "MÜll") = true := by decide
    exact htest m hm ((available_iff m).2 h)
  have hfirst : FirstWith (Available {} "MÜll") spellings spellings[2] :=
    ⟨spellings.take 2, spellings.drop 3, rfl, ⟨⟨tree, ht⟩, hname⟩, hbefore⟩
  have hfound : (ofModules spellings {}).module? "MÜll" = some tree :=
    ((built spellings {}).1 tree).2 ⟨_, hfirst, ht⟩
  refine ⟨tree, ht, hfound, ?_, ?_, ?_, ?_⟩
  · exact hidden [] _ _ {} fault hf
  · exact (given _).2.2.1 "mÜLL" (Text.eqCaseless_iff_sameLetters.1 (by decide))
  · exact (given _).2.2.2 tree hfound
  · exact kinds [] namesake [tree] [] (by decide)

end Project

end DeclTree
