import DeclTree.Proofs.Places
/-!
# Where every type comes from

A declared symbol comes by its type in one of three ways: its As clause names
it, its type hint stands for it, or it has neither and the type is the
fallback. Its own As clause and type hint decide which of them it is, in this
order, and the flags recorded with the type tell the ways apart. This is so for
each variable, each constant and each procedure with a value in a built tree.
-/
namespace DeclTree

/-! ## One symbol -/

/-- The three ways in which a symbol comes by its type. -/
inductive TypeWay
  | written
  | hinted
  | implicit
deriving DecidableEq

/-- The sigils, each with the name of the type that it stands for. -/
def sigilNames : List (String × String) :=
  [("%", "Integer"), ("&", "Long"), ("@", "Decimal"), ("!", "Single"), ("#", "Double"), ("$", "String")]

/-- A symbol with this As clause and this type hint came by its type in this
way. A hint beside an As clause may be anything. -/
def TypeWay.Taken (asClause : Option Source.AsClause) (hint : Option Source.Excerpt) (type : DeclaredType) :
    TypeWay → Prop
  | .written => ∃ clause name, asClause = some clause ∧ clause.typeName = some name ∧
    type.name = name.text ∧ type.isImplicit = false ∧ type.isHinted = false
  | .hinted => asClause = none ∧ ∃ h, hint = some h ∧ (h.text, type.name) ∈ sigilNames ∧
    type.isImplicit = false ∧ type.isHinted = true
  | .implicit => asClause = none ∧ hint = none ∧
    type.name = "Variant" ∧ type.isImplicit = true ∧ type.isHinted = false

/-- The symbol came by its type in exactly one way, and at most one flag is set. -/
structure TypedBy (asClause : Option Source.AsClause) (hint : Option Source.Excerpt) (type : DeclaredType) :
    Prop where
  way : ∃! way, TypeWay.Taken asClause hint type way
  flags : ¬ (type.isImplicit ∧ type.isHinted)

/-- The six sigils stand for the types that the table names. -/
theorem mem_sigilNames {hint : String} {type : Builtin} (h : Builtin.ofHint? hint = some type) :
    (hint, type.name) ∈ sigilNames := by
  obtain ⟨c, hc, hmem⟩ := Builtin.ofHint?_eq_some.1 h
  rw [← String.ofList_toList (s := hint), hc]
  simp only [Builtin.sigils, List.mem_cons, Prod.mk.injEq, List.not_mem_nil, or_false] at hmem
  rcases hmem with h | h | h | h | h | h <;> obtain ⟨rfl, rfl⟩ := h <;> decide

/-- No sigil stands twice in the table. -/
theorem sigilNames_unique {hint name name' : String} (h : (hint, name) ∈ sigilNames)
    (h' : (hint, name') ∈ sigilNames) : name = name' := by
  simp only [sigilNames, List.mem_cons, Prod.mk.injEq, List.not_mem_nil, or_false] at h h'
  rcases h with h | h | h | h | h | h <;> obtain ⟨rfl, rfl⟩ := h <;> simpa [eq_comm] using h'

variable {asClause : Option Source.AsClause} {hint : Option Source.Excerpt} {type type' : DeclaredType}

/-- The clause and the hint leave only one way. -/
theorem TypeWay.Taken.unique {way way' : TypeWay} (h : way.Taken asClause hint type)
    (h' : way'.Taken asClause hint type') : way = way' := by
  cases way <;> cases way' <;> simp_all [TypeWay.Taken]

/-- The clause and the hint decide the type, whatever else there is. -/
theorem TypeWay.Taken.type_unique {way : TypeWay} (h : way.Taken asClause hint type)
    (h' : way.Taken asClause hint type') : type = type' := by
  obtain ⟨name, isImplicit, isHinted⟩ := type
  obtain ⟨name', isImplicit', isHinted'⟩ := type'
  cases way with
  | written =>
    obtain ⟨clause, x, hc, hx, rfl, rfl, rfl⟩ := h
    obtain ⟨clause', x', hc', hx', rfl, rfl, rfl⟩ := h'
    rw [hc] at hc'
    cases hc'
    rw [hx] at hx'
    cases hx'
    rfl
  | hinted =>
    obtain ⟨-, x, hx, hmem, rfl, rfl⟩ := h
    obtain ⟨-, x', hx', hmem', rfl, rfl⟩ := h'
    rw [hx] at hx'
    cases hx'
    have hname : name = name' := sigilNames_unique hmem hmem'
    rw [hname]
  | implicit =>
    obtain ⟨-, -, rfl, rfl, rfl⟩ := h
    obtain ⟨-, -, rfl, rfl, rfl⟩ := h'
    rfl

theorem exists_taken (h : DeclaredType.resolve asClause hint = .ok type) :
    ∃ way, TypeWay.Taken asClause hint type way := by
  obtain ⟨source, hs, rfl⟩ := map_eq_ok.1 h
  match asClause, hint with
  | some clause, _ =>
    obtain ⟨name, hn, rfl⟩ := TypeSource.ofAsClause_eq_ok.1 hs
    exact ⟨.written, clause, name, rfl, hn, rfl, rfl, rfl⟩
  | none, some hint =>
    obtain ⟨type, ht, rfl⟩ := TypeSource.ofHint_eq_ok.1 hs
    exact ⟨.hinted, rfl, hint, rfl, mem_sigilNames ht, rfl, rfl⟩
  | none, none =>
    cases hs
    exact ⟨.implicit, rfl, rfl, rfl, rfl, rfl⟩

theorem TypeWay.Taken.flags {way : TypeWay} (h : way.Taken asClause hint type) :
    ¬ (type.isImplicit ∧ type.isHinted) := by
  cases way with
  | written =>
    obtain ⟨_, _, -, -, -, hi, -⟩ := h
    simp [hi]
  | hinted =>
    obtain ⟨-, _, -, -, hi, -⟩ := h
    simp [hi]
  | implicit =>
    obtain ⟨-, -, -, -, hh⟩ := h
    simp [hh]

theorem typedBy_of_resolve (h : DeclaredType.resolve asClause hint = .ok type) : TypedBy asClause hint type := by
  obtain ⟨way, hw⟩ := exists_taken h
  exact ⟨⟨way, hw, fun way' hw' => hw'.unique hw⟩, hw.flags⟩

theorem TypedBy.type_unique (h : TypedBy asClause hint type) (h' : TypedBy asClause hint type') : type = type' := by
  obtain ⟨way, hw, -⟩ := h.way
  obtain ⟨way', hw', -⟩ := h'.way
  obtain rfl := hw.unique hw'
  exact hw.type_unique hw'

/-- With an As clause, no flag is set. -/
theorem TypedBy.flags_of_asClause {clause : Source.AsClause} (h : TypedBy (some clause) hint type) :
    type.isImplicit = false ∧ type.isHinted = false := by
  obtain ⟨way, hw, -⟩ := h.way
  cases way with
  | written =>
    obtain ⟨_, _, -, -, -, hi, hh⟩ := hw
    exact ⟨hi, hh⟩
  | hinted => cases hw.1
  | implicit => cases hw.1

/-! ## Every symbol of a built tree -/

namespace Source

/-- The node repeats how this part of the source came by its type: its own As
clause and type hint decide it. Statements have no type, nor have procedures
without a value. -/
def Construct.Typed : Construct → Node → Prop
  | .varStatement _, n => n.kind = .varDeclaration
  | .var e, n => n.source = e.span ∧ ∃ v, n.entity = .var v ∧ TypedBy e.asClause e.typeHint v.type ∧
    (v.isNew → v.type.isImplicit = false ∧ v.type.isHinted = false)
  | .constStatement _, n => n.kind = .constDeclaration
  | .const e, n => n.source = e.span ∧ ∃ c, n.entity = .const c ∧ TypedBy e.asClause e.typeHint c.type
  | .procedure p, n => n.source = p.span ∧ ∃ q, n.entity = .procedure q ∧ q.kind = p.kind ∧
    (q.returnType = none ↔ q.kind = .sub ∨ q.kind = .propertyLet ∨ q.kind = .propertySet) ∧
    ∀ type, q.returnType = some type → TypedBy p.asClause p.typeHint type

theorem returnType_eq_ok {p : Procedure} {type : Option DeclaredType} (h : p.returnType = .ok type) :
    (type = none ↔ p.kind = .sub ∨ p.kind = .propertyLet ∨ p.kind = .propertySet) ∧
    ∀ t, type = some t → TypedBy p.asClause p.typeHint t := by
  unfold Procedure.returnType at h
  split at h
  · rename_i hk
    obtain ⟨t, ht, rfl⟩ := map_eq_ok.1 h
    refine ⟨?_, ?_⟩
    · cases hp : p.kind <;> simp_all [ProcedureKind.returnsValue]
    · rintro _ ⟨⟩
      exact typedBy_of_resolve ht
  · rename_i hk
    cases h
    refine ⟨?_, nofun⟩
    cases hp : p.kind <;> simp_all [ProcedureKind.returnsValue]

theorem typed_of_readAs {part : Construct} {module : String} {settings : Settings} {within : Option String}
    {n : Node} (h : part.ReadAs module settings within n) : part.Typed n := by
  match part with
  | .varStatement s =>
    obtain ⟨_, -, rfl⟩ := VariableStatement.declare_eq_ok.1 h
    rfl
  | .var e =>
    obtain ⟨s, -, he⟩ := h
    obtain ⟨_, type, _, -, ht, -, rfl⟩ := VariableEntry.declare_eq_ok.1 he
    refine ⟨rfl, _, rfl, typedBy_of_resolve ht, ?_⟩
    intro hnew
    cases hc : e.asClause with
    | none => simp [hc] at hnew
    | some clause =>
      rw [hc] at ht
      exact (typedBy_of_resolve ht).flags_of_asClause
  | .constStatement s =>
    obtain ⟨_, -, rfl⟩ := ConstantStatement.declare_eq_ok.1 h
    rfl
  | .const e =>
    obtain ⟨s, -, he⟩ := h
    obtain ⟨_, _, type, _, -, -, ht, -, rfl⟩ := ConstantEntry.declare_eq_ok.1 he
    exact ⟨rfl, _, rfl, typedBy_of_resolve ht⟩
  | .procedure p =>
    obtain ⟨-, hp⟩ := h
    obtain ⟨_, _, type, _, -, -, ht, -, rfl⟩ := Procedure.declare_eq_ok.1 hp
    obtain ⟨hnone, hsome⟩ := returnType_eq_ok ht
    exact ⟨rfl, _, rfl, rfl, hnone, hsome⟩

/-! ## Main theorem -/

/-- In a built tree, beside the outline of the source, every symbol came by its
type in exactly one of the three ways, and it is its own As clause and type hint
that decide which, and what type it is. -/
theorem types_have_one_source {m : Module} {settings : Settings} {root : Node} (h : m.declare settings = .ok root) :
    List.Forall₂ Construct.Typed m.outline root.descendants.toList ∧
    ∀ asClause hint type type', TypedBy asClause hint type → TypedBy asClause hint type' → type = type' := by
  refine ⟨?_, fun _ _ _ _ ht ht' => ht.type_unique ht'⟩
  have hsurvey := (surveyed_module h).imp fun part node hx => typed_of_readAs hx.2
  rw [Node.toList_descendants, ← map_snd_survey, ← Node.map_snd_locatedAll none, List.forall₂_map_left_iff,
    List.forall₂_map_right_iff]
  exact hsurvey

/-- A module with a variable whose hint is not a sigil, beside an As clause. -/
def overruled : Module where
  name := "Cache"
  items := [.declaration (.variables {
    entries := [{
      identifier := some ⟨⟨4, 8⟩, "size"⟩
      typeHint := some ⟨⟨8, 10⟩, "%%"⟩
      asClause := some ⟨⟨11, 18⟩, false, some ⟨⟨14, 18⟩, "Long"⟩⟩ }] })]

theorem types_have_one_source_of_overruled : ∃ root, overruled.declare {} = .ok root ∧
    List.Forall₂ Construct.Typed overruled.outline root.descendants.toList ∧
    (root.preorder[2]?.bind (·.entity.var?)).map (·.type) = some ⟨"Long", false, false⟩ := by
  obtain ⟨root, h, hlong⟩ : ∃ root, overruled.declare {} = .ok root ∧
      (root.preorder[2]?.bind (·.entity.var?)).map (·.type) = some ⟨"Long", false, false⟩ := ⟨_, rfl, rfl⟩
  exact ⟨root, h, (types_have_one_source h).1, hlong⟩

end Source

end DeclTree
