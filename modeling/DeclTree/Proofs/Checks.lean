import DeclTree.Proofs.Reading
/-!
# The checks of a module

What a module has to satisfy, written down from its source alone: a list of
checks in the order of the text, each with the fault of a module that does not
pass it. A module is built if it passes all of them, and otherwise its fault is
that of the first one that it does not pass. The settings have no say in this.

Every reading is made of smaller ones, one after the other, so it is enough
that the checks of the parts decide the parts (`Decides`).
-/
namespace DeclTree.Source

/-! ## Checks -/

/-- One thing that a declaration has to satisfy: that a part is there, that an
identifier is not empty, that a type hint is known, that a visibility keyword
is known. -/
inductive Check
  | present (part : Part) (place : Span) (found : Option Excerpt)
  | nonempty (identifier : Excerpt)
  | hint (hint : Excerpt)
  | keyword (clause : Excerpt)
deriving DecidableEq

namespace Check

/-- What is checked. -/
def Passes : Check → Prop
  | present _ _ found => found ≠ none
  | nonempty identifier => identifier.text ≠ ""
  | hint h => h.text ∈ ["%", "&", "@", "!", "#", "$"]
  | keyword clause =>
    ∃ word ∈ ["Private", "Public", "Friend", "Global"], Text.eqCaseless word (Text.trim clause.text)

instance : DecidablePred Passes
  | present _ _ found => inferInstanceAs (Decidable (found ≠ none))
  | nonempty identifier => inferInstanceAs (Decidable (identifier.text ≠ ""))
  | hint h => inferInstanceAs (Decidable (h.text ∈ ["%", "&", "@", "!", "#", "$"]))
  | keyword clause => inferInstanceAs (Decidable (∃ word ∈ ["Private", "Public", "Friend", "Global"],
      Text.eqCaseless word (Text.trim clause.text)))

/-- The fault of a declaration that does not pass. -/
def fault : Check → Fault
  | present part place _ => .missing part place
  | nonempty identifier => .missing .identifier identifier.span
  | hint h => .unknownHint h.text h.span
  | keyword clause => .unknownVisibility clause.text clause.span

/-- The fault of the first check that is not passed. -/
def firstFault? : List Check → Option Fault
  | [] => none
  | c :: cs => if c.Passes then firstFault? cs else some c.fault

end Check

/-! ## The checks of the source, in its order -/

/-- An identifier is there and not empty. -/
def identifierChecks (place : Span) (identifier : Option Excerpt) : List Check :=
  .present .identifier place identifier :: identifier.toList.map .nonempty

/-- An As clause names a type. A type hint is looked at only without one. -/
def typeChecks : Option AsClause → Option Excerpt → List Check
  | some clause, _ => [.present .typeName clause.span clause.typeName]
  | none, hint => hint.toList.map .hint

/-- The keyword of a visibility clause is known. -/
def visibilityChecks (clause : Option Excerpt) : List Check := clause.toList.map .keyword

/-- The checks of a variable whose visibility clause, if it counts, is `clause`. -/
def VariableEntry.checks (e : VariableEntry) (clause : Option Excerpt) : List Check :=
  identifierChecks e.span e.identifier ++ typeChecks e.asClause e.typeHint ++ visibilityChecks clause

/-- The checks of a constant whose visibility clause, if it counts, is `clause`. -/
def ConstantEntry.checks (e : ConstantEntry) (clause : Option Excerpt) : List Check :=
  identifierChecks e.span e.identifier ++ .present .constantValue e.span e.value ::
    typeChecks e.asClause e.typeHint ++ visibilityChecks clause

/-- The checks of a statement at the head of a module or in a body. The
visibility clause counts at the head of a module only, and there not after a
local keyword. -/
def Declaration.checks (inBody : Bool) : Declaration → List Check
  | .variables s =>
    s.entries.flatMap (·.checks (if inBody ∨ s.localKeyword ≠ none then none else s.visibility))
  | .constants s => s.entries.flatMap (·.checks (if inBody then none else s.visibility))

/-- The checks of a procedure; its type clauses count if it has a value. -/
def Procedure.checks (p : Procedure) : List Check :=
  identifierChecks p.span p.identifier ++ visibilityChecks p.visibility ++
    (if p.kind = .function ∨ p.kind = .propertyGet then typeChecks p.asClause p.typeHint else []) ++
    p.body.flatMap (·.checks true)

/-- The checks of an item of a module. -/
def Item.checks : Item → List Check
  | .declaration d => d.checks false
  | .procedure p => p.checks

/-- The checks of a module. -/
def Module.checks (m : Module) : List Check := m.items.flatMap (·.checks)

/-! ## Checks that decide a reading -/

section Decides
variable {α β : Type}

/-- The fault of an outcome that is one. -/
def fault? : Except Fault α → Option Fault
  | .ok _ => none
  | .error f => some f

/-- A reading succeeds if all the checks are passed, and otherwise has the
fault of the first that is not. -/
def Decides (cs : List Check) (x : Except Fault α) : Prop := Check.firstFault? cs = fault? x

theorem firstFault?_append (cs ds : List Check) :
    Check.firstFault? (cs ++ ds) = (Check.firstFault? cs).or (Check.firstFault? ds) := by
  induction cs with
  | nil => rfl
  | cons c cs ih =>
    simp only [List.cons_append, Check.firstFault?]
    split
    · exact ih
    · rfl

theorem firstFault?_eq_none {cs : List Check} : Check.firstFault? cs = none ↔ ∀ c ∈ cs, c.Passes := by
  induction cs with
  | nil => simp [Check.firstFault?]
  | cons c cs ih =>
    by_cases h : c.Passes
    · simp [Check.firstFault?, h, ih]
    · simp [Check.firstFault?, h]

/-- The first fault splits the checks at the check that it is of. -/
theorem firstFault?_eq_some {cs : List Check} {f : Fault} :
    Check.firstFault? cs = some f ↔ ∃ before c after, cs = before ++ c :: after ∧
      (∀ d ∈ before, d.Passes) ∧ ¬ c.Passes ∧ c.fault = f := by
  constructor
  · intro h
    induction cs with
    | nil => cases h
    | cons c cs ih =>
      rw [Check.firstFault?] at h
      by_cases hc : c.Passes
      · rw [if_pos hc] at h
        obtain ⟨before, d, after, rfl, hb, hd, hf⟩ := ih h
        refine ⟨c :: before, d, after, rfl, ?_, hd, hf⟩
        intro d hd
        rcases List.mem_cons.1 hd with rfl | hd
        · exact hc
        · exact hb d hd
      · rw [if_neg hc] at h
        exact ⟨[], c, cs, rfl, by simp, hc, Option.some.inj h⟩
  · rintro ⟨before, c, after, rfl, hb, hc, rfl⟩
    rw [firstFault?_append, firstFault?_eq_none.2 hb, Option.none_or, Check.firstFault?, if_neg hc]

theorem decides_ok (a : α) : Decides [] (.ok a : Except Fault α) := rfl

/-- A reading that succeeds exactly if one check is passed, and otherwise has
the check's fault. -/
theorem decides_one {c : Check} {x : Except Fault α} (hok : c.Passes ↔ ∃ a, x = .ok a)
    (herr : ∀ f, x = .error f → f = c.fault) : Decides [c] x := by
  cases x with
  | ok a => simp [Decides, Check.firstFault?, fault?, hok.2 ⟨a, rfl⟩]
  | error f =>
    have hc : ¬ c.Passes := fun h => by obtain ⟨a, ha⟩ := hok.1 h; cases ha
    simp [Decides, Check.firstFault?, fault?, hc, herr f rfl]

/-- The checks of a reading's two parts, one after the other, decide it. -/
theorem Decides.bind {cs ds : List Check} {x : Except Fault α} {g : α → Except Fault β}
    (hx : Decides cs x) (hg : ∀ a, Decides ds (g a)) : Decides (cs ++ ds) (x >>= g) := by
  unfold Decides at hx ⊢
  rw [firstFault?_append, hx]
  cases x with
  | ok a => exact hg a
  | error f => rfl

theorem Decides.map {cs : List Check} {x : Except Fault α} (hx : Decides cs x) (g : α → β) :
    Decides cs (x.map g) := by
  cases x <;> exact hx

/-- The checks of the members of a list decide the reading of the list. -/
theorem Decides.mapM {γ : Type} {l : List γ} {checks : γ → List Check} {g : γ → Except Fault α}
    (h : ∀ x, Decides (checks x) (g x)) : Decides (l.flatMap checks) (l.mapM g) := by
  induction l with
  | nil => exact decides_ok []
  | cons x l ih =>
    rw [List.mapM_cons, List.flatMap_cons]
    refine (h x).bind fun a => ?_
    rw [← List.append_nil (l.flatMap checks)]
    exact ih.bind fun as => decides_ok (a :: as)

end Decides

/-! ## Each reading is decided by its checks -/

theorem decides_require (part : Part) (place : Span) (found : Option Excerpt) :
    Decides [.present part place found] (part.require place found) := by
  cases found <;> rfl

theorem decides_declaredName (place : Span) (identifier : Option Excerpt) :
    Decides (identifierChecks place identifier) (declaredName place identifier) := by
  cases identifier with
  | none => rfl
  | some x =>
    by_cases h : x.text = "" <;>
      simp [Decides, identifierChecks, declaredName_some, Check.firstFault?, Check.Passes, Check.fault, fault?, h]

theorem passes_hint {hint : Excerpt} :
    (Check.hint hint).Passes ↔ ∃ source, TypeSource.ofHint hint = .ok source := by
  have known : (∃ source, TypeSource.ofHint hint = .ok source) ↔ ∃ type, Builtin.ofHint? hint.text = some type := by
    cases h : Builtin.ofHint? hint.text <;> simp [TypeSource.ofHint, h]
  simp only [known, Builtin.ofHint?_eq_some, Check.Passes, List.mem_cons, List.not_mem_nil, or_false]
  constructor
  · rintro (h | h | h | h | h | h) <;> rw [h]
    · exact ⟨.integer, '%', rfl, by decide⟩
    · exact ⟨.long, '&', rfl, by decide⟩
    · exact ⟨.decimal, '@', rfl, by decide⟩
    · exact ⟨.single, '!', rfl, by decide⟩
    · exact ⟨.double, '#', rfl, by decide⟩
    · exact ⟨.string, '$', rfl, by decide⟩
  · rintro ⟨type, c, hc, hm⟩
    rw [← String.ofList_toList (s := hint.text), hc]
    simp only [Builtin.sigils, List.mem_cons, Prod.mk.injEq, List.not_mem_nil, or_false] at hm
    rcases hm with hm | hm | hm | hm | hm | hm <;> obtain ⟨rfl, -⟩ := hm <;> decide

theorem passes_keyword {clause : Excerpt} :
    (Check.keyword clause).Passes ↔ ∃ a, Accessibility.ofClause clause = .ok a := by
  simp only [Accessibility.ofClause_eq_ok, Check.Passes]
  constructor
  · rintro ⟨word, hw, h⟩
    simp only [List.mem_cons, List.not_mem_nil, or_false] at hw
    rcases hw with rfl | rfl | rfl | rfl
    · exact ⟨.priv, h⟩
    · exact ⟨.pub, h⟩
    · exact ⟨.friend, h⟩
    · exact ⟨.global, h⟩
  · rintro ⟨a, h⟩
    exact ⟨a.keyword, by cases a <;> simp [Accessibility.keyword], h⟩

theorem decides_hint (hint : Excerpt) : Decides [.hint hint] (TypeSource.ofHint hint) := by
  refine decides_one passes_hint fun f h => ?_
  unfold TypeSource.ofHint at h
  split at h <;> cases h
  rfl

theorem decides_keyword (clause : Excerpt) : Decides [.keyword clause] (Accessibility.ofClause clause) := by
  refine decides_one passes_keyword fun f h => ?_
  unfold Accessibility.ofClause at h
  split at h <;> cases h
  rfl

theorem decides_type (clause : Option AsClause) (hint : Option Excerpt) :
    Decides (typeChecks clause hint) (DeclaredType.resolve clause hint) := by
  apply Decides.map
  match clause, hint with
  | some clause, _ => exact (decides_require _ _ _).map _
  | none, none => exact decides_ok _
  | none, some hint => exact decides_hint hint

theorem decides_accessibility (visibility : Option Excerpt) (default : Accessibility) :
    Decides (visibilityChecks visibility) (Accessibility.resolve false visibility default) := by
  cases visibility with
  | none => exact decides_ok default
  | some clause => rw [Accessibility.resolve_some]; exact decides_keyword clause

/-! ## The readings of the source -/

section Readings
variable {place : Placement} {clause : Option Excerpt}

theorem decides_variable (e : VariableEntry) (hp : Decides (visibilityChecks clause) place.accessibility) :
    Decides (e.checks clause) (e.declare place) := by
  rw [VariableEntry.checks, List.append_assoc]
  refine (decides_declaredName _ _).bind fun name => (decides_type _ _).bind fun type => ?_
  exact hp.map _

theorem decides_constant (e : ConstantEntry) (hp : Decides (visibilityChecks clause) place.accessibility) :
    Decides (e.checks clause) (e.declare place) := by
  rw [ConstantEntry.checks, List.append_assoc]
  refine (decides_declaredName _ _).bind fun name => ?_
  refine (decides_require _ _ _).bind fun value => (decides_type _ _).bind fun type => ?_
  exact hp.map _

end Readings

/-- The visibility clause counts exactly where the placement is not local. -/
theorem decides_placement (p : Placement) :
    Decides (visibilityChecks (if p.isLocal then none else p.visibility)) p.accessibility := by
  unfold Placement.accessibility
  cases p.isLocal with
  | true => exact decides_ok _
  | false => exact decides_accessibility _ _

theorem decides_declaration (d : Declaration) (scope : Scope) (settings : Settings) :
    Decides (d.checks scope.isProcedure) (d.declare scope settings) := by
  match d with
  | .variables s =>
    have h := decides_placement (s.placement scope settings)
    -- Locality is one disjunction, which the checks and the placement write in different orders.
    have hl : (s.placement scope settings).isLocal = true ↔ scope.isProcedure = true ∨ s.localKeyword ≠ none := by
      simp [VariableStatement.placement, VariableStatement.isLocal, Option.isSome_iff_ne_none, or_comm]
    simp only [hl] at h
    exact Decides.map (Decides.mapM fun e => decides_variable e h) _
  | .constants s =>
    have h := decides_placement (s.placement scope settings)
    exact Decides.map (Decides.mapM fun e => decides_constant e h) _

theorem decides_procedure (p : Procedure) (scope : Scope) (settings : Settings) :
    Decides p.checks (p.declare scope settings) := by
  have hr : Decides (if p.kind = .function ∨ p.kind = .propertyGet then typeChecks p.asClause p.typeHint else [])
      p.returnType := by
    unfold Procedure.returnType
    cases p.kind <;> first | exact decides_ok none | exact (decides_type _ _).map some
  unfold Procedure.checks
  simp only [List.append_assoc]
  refine (decides_declaredName _ _).bind fun name => (decides_accessibility _ _).bind fun a => hr.bind fun type => ?_
  -- The scope of the body holds the name just read, but no check of the body asks for it.
  exact Decides.map (Decides.mapM fun d => decides_declaration d (.procedure scope.moduleName name) settings) _

theorem decides_item (item : Item) (name : String) (settings : Settings) :
    Decides item.checks (item.declare (.module name) settings) := by
  match item with
  | .declaration d => exact decides_declaration d (.module name) settings
  | .procedure p => exact decides_procedure p _ settings

theorem decides_module (m : Module) (settings : Settings) : Decides m.checks (m.declare settings) :=
  Decides.map (Decides.mapM fun item => decides_item item m.name settings) _

/-! ## Main theorem -/

/-- A module is built exactly if all of its checks are passed, under whatever
settings; otherwise its fault is that of the first check that is not. -/
theorem declare_outcome_iff_checks (m : Module) (settings : Settings) :
    ((∃ root, m.declare settings = .ok root) ↔ ∀ c ∈ m.checks, c.Passes) ∧
    ∀ f, m.declare settings = .error f ↔ ∃ before c after, m.checks = before ++ c :: after ∧
      (∀ d ∈ before, d.Passes) ∧ ¬ c.Passes ∧ c.fault = f := by
  have h : Check.firstFault? m.checks = fault? (m.declare settings) := decides_module m settings
  rw [← firstFault?_eq_none, h]
  refine ⟨?_, fun f => ?_⟩
  · cases m.declare settings <;> simp [fault?]
  · rw [← firstFault?_eq_some, h]
    cases m.declare settings <;> simp [fault?]

/-- A missing value is found before an unknown hint and an unknown keyword. -/
example : Check.firstFault? (Declaration.checks false (.constants {
    visibility := some ⟨⟨1, 2⟩, "Secret"⟩
    entries := [{ span := ⟨3, 9⟩, identifier := some ⟨⟨3, 4⟩, "c"⟩, typeHint := some ⟨⟨4, 5⟩, "?"⟩ }] })) =
    some (.missing .constantValue ⟨3, 9⟩) := by decide

end DeclTree.Source
