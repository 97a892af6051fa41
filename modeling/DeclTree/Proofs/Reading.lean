import DeclTree.Declare.Module
import Mathlib.Data.List.Forall2
/-!
# What a successful reading returns

For each thing that can be read, one equivalence: it is read as a node exactly
if its parts can be read, and the node then consists of what they were read as.
Whatever is shown of built trees is shown over these equivalences, and none of
the readings is looked at again.
-/
namespace DeclTree

/-! ## Steps and lists -/

section Steps
variable {α β : Type}

theorem bind_eq_ok {x : Except Fault α} {g : α → Except Fault β} {b : β} :
    x >>= g = .ok b ↔ ∃ a, x = .ok a ∧ g a = .ok b := by
  cases x <;> simp [bind, Except.bind]

theorem map_eq_ok {x : Except Fault α} {g : α → β} {b : β} :
    x.map g = .ok b ↔ ∃ a, x = .ok a ∧ b = g a := by
  cases x <;> simp [Except.map, eq_comm]

theorem pure_eq_ok {a b : α} : (pure a : Except Fault α) = .ok b ↔ b = a := by
  simp [pure, Except.pure, eq_comm]

/-- A list is read as the list of what its members are read as. -/
theorem mapM_eq_ok {g : α → Except Fault β} {as : List α} {bs : List β} :
    as.mapM g = .ok bs ↔ List.Forall₂ (fun a b => g a = .ok b) as bs := by
  induction as generalizing bs with
  | nil => cases bs <;> simp [pure, Except.pure]
  | cons a as ih =>
    rw [List.mapM_cons, bind_eq_ok]
    constructor
    · rintro ⟨b, hb, h⟩
      obtain ⟨bs', hbs, h⟩ := bind_eq_ok.1 h
      cases h
      exact .cons hb (ih.1 hbs)
    · intro h
      cases h with
      | cons hb hbs => exact ⟨_, hb, bind_eq_ok.2 ⟨_, ih.2 hbs, rfl⟩⟩

/-- What every member is read as has a property that readings have. -/
theorem forall_of_forall₂ {R : α → β → Prop} {P : β → Prop} {as : List α} {bs : List β}
    (h : List.Forall₂ R as bs) (hP : ∀ a b, R a b → P b) : ∀ b ∈ bs, P b := by
  induction h with
  | nil => simp
  | cons hab _ ih => exact List.forall_mem_cons.2 ⟨hP _ _ hab, ih⟩

end Steps

/-! ## Clauses -/

theorem Part.require_eq_ok {part : Part} {place : Span} {α : Type} {found : Option α} {a : α} :
    part.require place found = .ok a ↔ found = some a := by
  cases found <;> simp

/-- A hint stands for a type if it is the sigil of that type. -/
theorem Builtin.ofHint?_eq_some {hint : String} {type : Builtin} :
    Builtin.ofHint? hint = some type ↔ ∃ c, hint.toList = [c] ∧ (c, type) ∈ Builtin.sigils := by
  have lookup : ∀ c, Builtin.ofSigil? c = some type ↔ (c, type) ∈ Builtin.sigils := by
    intro c
    constructor
    · intro h
      obtain ⟨before, after, hl, -⟩ := List.lookup_eq_some_iff.1 h
      simp [hl]
    · intro h
      simp only [Builtin.sigils, List.mem_cons, Prod.mk.injEq, List.not_mem_nil, or_false] at h
      rcases h with h | h | h | h | h | h <;> obtain ⟨rfl, rfl⟩ := h <;> rfl
  simp only [Builtin.ofHint?, Option.bind_eq_some_iff, Builtin.sigil?_eq_some, lookup]

/-- No type has two sigils. -/
theorem Builtin.sigil_unique {c d : Char} {type : Builtin} (hc : (c, type) ∈ Builtin.sigils)
    (hd : (d, type) ∈ Builtin.sigils) : c = d := by
  revert hc hd
  simp only [Builtin.sigils, List.mem_cons, Prod.mk.injEq, List.not_mem_nil, or_false]
  cases type <;> simp_all

/-- No two hints stand for one type. -/
theorem Builtin.ofHint?_unique {a b : String} {type : Builtin} (ha : Builtin.ofHint? a = some type)
    (hb : Builtin.ofHint? b = some type) : a = b := by
  obtain ⟨c, hc, hcm⟩ := Builtin.ofHint?_eq_some.1 ha
  obtain ⟨d, hd, hdm⟩ := Builtin.ofHint?_eq_some.1 hb
  rw [← String.toList_inj, hc, hd, Builtin.sigil_unique hcm hdm]

/-- A word stands for an accessibility if it is spelled like its keyword, up to
letter case. -/
theorem Accessibility.ofKeyword?_eq_some {word : String} {a : Accessibility} :
    Accessibility.ofKeyword? word = some a ↔ Text.eqCaseless a.keyword word := by
  have spelled : ∀ b, Accessibility.ofKeyword? word = some b → Text.eqCaseless b.keyword word := by
    intro b hb
    have := List.find?_some hb
    exact this
  constructor
  · exact spelled a
  · intro h
    cases hf : Accessibility.ofKeyword? word with
    | none => exact absurd h (List.find?_eq_none.1 hf a (Accessibility.mem_all a))
    | some b =>
      have hb := spelled b hf
      rw [Text.eqCaseless_iff] at h hb
      rw [Accessibility.foldCase_keyword_injective (h.trans hb.symm)]

theorem Accessibility.ofClause_eq_ok {clause : Source.Excerpt} {a : Accessibility} :
    Accessibility.ofClause clause = .ok a ↔ Text.eqCaseless a.keyword (Text.trim clause.text) := by
  rw [← Accessibility.ofKeyword?_eq_some, Accessibility.ofClause]
  cases Accessibility.ofKeyword? (Text.trim clause.text) <;> simp

/-- The accessibility that a visibility clause stands for outside procedures:
that of its keyword, white space around it and letter case aside, and the
default without a clause. -/
def Accessibility.Effective (visibility : Option Source.Excerpt) (default a : Accessibility) : Prop :=
  match visibility with
  | none => a = default
  | some clause => Text.eqCaseless a.keyword (Text.trim clause.text)

theorem Accessibility.resolve_eq_ok {visibility : Option Source.Excerpt} {default a : Accessibility} :
    Accessibility.resolve false visibility default = .ok a ↔ Accessibility.Effective visibility default a := by
  cases visibility with
  | none => simp [Accessibility.Effective, eq_comm]
  | some clause => rw [Accessibility.resolve_some, Accessibility.ofClause_eq_ok, Accessibility.Effective]

/-- Clauses with the same text stand for one accessibility. -/
theorem Accessibility.Effective.unique {v w : Option Source.Excerpt} {default a b : Accessibility}
    (h : v.map (·.text) = w.map (·.text)) (ha : Accessibility.Effective v default a)
    (hb : Accessibility.Effective w default b) : a = b := by
  have hv : Accessibility.Effective v default b := by
    cases v <;> cases w <;> simp_all [Accessibility.Effective]
  rw [← Accessibility.resolve_eq_ok] at ha hv
  exact Except.ok.inj (ha.symm.trans hv)

theorem TypeSource.ofAsClause_eq_ok {clause : Source.AsClause} {source : TypeSource} :
    TypeSource.ofAsClause clause = .ok source ↔ ∃ name, clause.typeName = some name ∧ source = .written name.text := by
  simp [TypeSource.ofAsClause, map_eq_ok, Part.require_eq_ok]

theorem TypeSource.ofHint_eq_ok {hint : Source.Excerpt} {source : TypeSource} :
    TypeSource.ofHint hint = .ok source ↔ ∃ type, Builtin.ofHint? hint.text = some type ∧ source = .hinted type := by
  cases h : Builtin.ofHint? hint.text <;> simp [TypeSource.ofHint, h, eq_comm]

namespace Source

theorem declaredName_eq_ok {place : Span} {identifier : Option Excerpt} {name : String} :
    declaredName place identifier = .ok name ↔ ∃ x, identifier = some x ∧ x.text ≠ "" ∧ name = x.text := by
  cases identifier with
  | none => simp
  | some x =>
    rw [declaredName_some]
    by_cases h : x.text = ""
    · simp [h]
    · rw [if_neg h, Except.ok.injEq]
      constructor
      · rintro rfl
        exact ⟨x, rfl, h, rfl⟩
      · rintro ⟨y, hy, -, rfl⟩
        rw [Option.some.inj hy]

/-! ## Entries, statements, procedures and modules -/

theorem VariableEntry.declare_eq_ok {e : VariableEntry} {place : Placement} {n : Node} :
    e.declare place = .ok n ↔ ∃ name type accessibility,
      declaredName e.span e.identifier = .ok name ∧ DeclaredType.resolve e.asClause e.typeHint = .ok type ∧
      place.accessibility = .ok accessibility ∧
      n = ⟨e.span, place.scope,
        .var ⟨name, type, accessibility, e.subscripts.isSome, e.asClause.any (·.isNew)⟩, []⟩ := by
  simp only [VariableEntry.declare, bind_eq_ok, pure_eq_ok, exists_and_left]

theorem ConstantEntry.declare_eq_ok {e : ConstantEntry} {place : Placement} {n : Node} :
    e.declare place = .ok n ↔ ∃ name value type accessibility,
      declaredName e.span e.identifier = .ok name ∧ e.value = some value ∧
      DeclaredType.resolve e.asClause e.typeHint = .ok type ∧ place.accessibility = .ok accessibility ∧
      n = ⟨e.span, place.scope, .const ⟨name, type, accessibility, value.text⟩, []⟩ := by
  simp only [ConstantEntry.declare, bind_eq_ok, Part.require_eq_ok, pure_eq_ok, exists_and_left]

theorem accessibility_of_isLocal {p : Placement} (h : p.isLocal = true) : p.accessibility = .ok .priv := by
  rw [Placement.accessibility, h, Accessibility.resolve_local]

/-- A local entry reads nothing of its placement but the scope. -/
theorem VariableEntry.declare_of_isLocal {p q : Placement} (hp : p.isLocal = true) (hq : q.isLocal = true)
    (hs : p.scope = q.scope) : (VariableEntry.declare · p) = (VariableEntry.declare · q) := by
  have ha := (accessibility_of_isLocal hp).trans (accessibility_of_isLocal hq).symm
  funext e
  unfold VariableEntry.declare
  rw [hs, ha]

theorem ConstantEntry.declare_of_isLocal {p q : Placement} (hp : p.isLocal = true) (hq : q.isLocal = true)
    (hs : p.scope = q.scope) : (ConstantEntry.declare · p) = (ConstantEntry.declare · q) := by
  have ha := (accessibility_of_isLocal hp).trans (accessibility_of_isLocal hq).symm
  funext e
  unfold ConstantEntry.declare
  rw [hs, ha]

theorem VariableStatement.declare_eq_ok {s : VariableStatement} {scope : Scope} {settings : Settings} {n : Node} :
    s.declare scope settings = .ok n ↔ ∃ children,
      List.Forall₂ (fun e c => e.declare (s.placement scope settings) = .ok c) s.entries children ∧
      n = ⟨s.span, scope, .varDeclaration ⟨(s.placement scope settings).isLocal, s.visibility.map (·.text),
        s.withEvents⟩, children⟩ := by
  simp only [VariableStatement.declare, bind_eq_ok, mapM_eq_ok, pure_eq_ok]

theorem ConstantStatement.declare_eq_ok {s : ConstantStatement} {scope : Scope} {settings : Settings} {n : Node} :
    s.declare scope settings = .ok n ↔ ∃ children,
      List.Forall₂ (fun e c => e.declare (s.placement scope settings) = .ok c) s.entries children ∧
      n = ⟨s.span, scope, .constDeclaration ⟨(s.placement scope settings).isLocal, s.visibility.map (·.text)⟩,
        children⟩ := by
  simp only [ConstantStatement.declare, bind_eq_ok, mapM_eq_ok, pure_eq_ok]

theorem Procedure.declare_eq_ok {p : Procedure} {scope : Scope} {settings : Settings} {n : Node} :
    p.declare scope settings = .ok n ↔ ∃ name accessibility type children,
      declaredName p.span p.identifier = .ok name ∧
      Accessibility.resolve false p.visibility settings.procedureDefault = .ok accessibility ∧
      p.returnType = .ok type ∧
      List.Forall₂ (fun d c => d.declare (.procedure scope.moduleName name) settings = .ok c) p.body children ∧
      n = ⟨p.span, scope, .procedure ⟨name, p.kind, p.isStatic, accessibility, type⟩, children⟩ := by
  simp only [Procedure.declare, bind_eq_ok, mapM_eq_ok, pure_eq_ok, exists_and_left]

theorem Module.declare_eq_ok {m : Module} {settings : Settings} {n : Node} :
    m.declare settings = .ok n ↔ ∃ children,
      List.Forall₂ (fun i c => i.declare (.module m.name) settings = .ok c) m.items children ∧
      n = ⟨m.span, .module m.name, .module m.name, children⟩ := by
  simp only [Module.declare, bind_eq_ok, mapM_eq_ok, pure_eq_ok]

/-! ## A module that can be read -/

/-- A module with a hinted array, an automatic object and a function with a
constant of its own, whose visibility clause is not looked at. -/
def ledger : Module where
  name := "Ledger.Main"
  span := ⟨0, 90⟩
  items := [
    .declaration (.variables {
      span := ⟨0, 30⟩
      visibility := some ⟨⟨0, 7⟩, " pUBLIC "⟩
      withEvents := true
      entries := [
        { span := ⟨8, 15⟩, identifier := some ⟨⟨8, 13⟩, "total"⟩, subscripts := some ⟨14, 16⟩,
          typeHint := some ⟨⟨13, 14⟩, "@"⟩ },
        { span := ⟨16, 30⟩, identifier := some ⟨⟨16, 20⟩, "rows"⟩,
          asClause := some ⟨⟨20, 30⟩, true, some ⟨⟨24, 30⟩, "Collection"⟩⟩ }] }),
    .procedure {
      span := ⟨31, 80⟩
      kind := .function
      isStatic := true
      identifier := some ⟨⟨40, 43⟩, "Sum"⟩
      body := [
        .constants {
          span := ⟨50, 60⟩
          visibility := some ⟨⟨50, 52⟩, "Secret"⟩
          entries := [{ span := ⟨52, 60⟩, identifier := some ⟨⟨52, 55⟩, "Cap"⟩, value := some ⟨⟨58, 60⟩, "-1"⟩ }] }] }]

end Source

end DeclTree
