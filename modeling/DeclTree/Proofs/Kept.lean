import DeclTree.Proofs.Reading
/-!
# What a tree keeps of its source

Two sources are alike if they agree on all that a declaration tree keeps: the
places of statements, entries and procedures, their names, their visibility as
written, where their types come from, the values of constants. They may differ
in the rest, such as the places of names and clauses, a hint beside an As
clause, or which local keyword stands where. Under the same settings, modules
that can be built have the same tree exactly if they are alike, so a tree
conflates nothing that it is meant to keep and keeps nothing else.
-/
namespace DeclTree.Source

/-! ## Sources that are alike -/

/-- What decides about a type: the name in the As clause, the hint, or neither. -/
inductive TypeOrigin
  | clause (typeName : Option String)
  | hint (text : String)
  | neither
deriving DecidableEq

/-- A hint decides only without an As clause. -/
def typeOrigin : Option AsClause → Option Excerpt → TypeOrigin
  | some clause, _ => .clause (clause.typeName.map (·.text))
  | none, some hint => .hint hint.text
  | none, none => .neither

/-- Two variables that a tree shows alike. -/
@[mk_iff] structure VariableEntry.Alike (e f : VariableEntry) : Prop where
  span : e.span = f.span
  name : e.identifier.map (·.text) = f.identifier.map (·.text)
  type : typeOrigin e.asClause e.typeHint = typeOrigin f.asClause f.typeHint
  isArray : e.subscripts.isSome = f.subscripts.isSome
  isNew : e.asClause.any (·.isNew) = f.asClause.any (·.isNew)

/-- Two constants that a tree shows alike. -/
@[mk_iff] structure ConstantEntry.Alike (e f : ConstantEntry) : Prop where
  span : e.span = f.span
  name : e.identifier.map (·.text) = f.identifier.map (·.text)
  type : typeOrigin e.asClause e.typeHint = typeOrigin f.asClause f.typeHint
  value : e.value.map (·.text) = f.value.map (·.text)

/-- Two statements that a tree shows alike. Whether there is a local keyword
does not show in a body. -/
inductive Declaration.Alike (inBody : Bool) : Declaration → Declaration → Prop
  | varStatement {s t : VariableStatement} (span : s.span = t.span)
      (visibility : s.visibility.map (·.text) = t.visibility.map (·.text))
      (isLocal : inBody = false → s.localKeyword.isSome = t.localKeyword.isSome)
      (withEvents : s.withEvents = t.withEvents)
      (entries : List.Forall₂ VariableEntry.Alike s.entries t.entries) : Alike inBody (.variables s) (.variables t)
  | constStatement {s t : ConstantStatement} (span : s.span = t.span)
      (visibility : s.visibility.map (·.text) = t.visibility.map (·.text))
      (entries : List.Forall₂ ConstantEntry.Alike s.entries t.entries) : Alike inBody (.constants s) (.constants t)

/-- Two procedures that a tree shows alike. Their visibility clauses need only
come to the same, and their types count only if they have a value. -/
structure Procedure.Alike (settings : Settings) (p q : Procedure) : Prop where
  span : p.span = q.span
  kind : p.kind = q.kind
  isStatic : p.isStatic = q.isStatic
  name : p.identifier.map (·.text) = q.identifier.map (·.text)
  accessibility : ∃ a, Accessibility.Effective p.visibility settings.procedureDefault a ∧
    Accessibility.Effective q.visibility settings.procedureDefault a
  type : p.kind.returnsValue → typeOrigin p.asClause p.typeHint = typeOrigin q.asClause q.typeHint
  body : List.Forall₂ (Declaration.Alike true) p.body q.body

/-- Two items that a tree shows alike. -/
inductive Item.Alike (settings : Settings) : Item → Item → Prop
  | declaration {d e : Declaration} (h : d.Alike false e) : Alike settings (.declaration d) (.declaration e)
  | procedure {p q : Procedure} (h : p.Alike settings q) : Alike settings (.procedure p) (.procedure q)

/-- Two modules that a tree shows alike. -/
structure Module.Alike (settings : Settings) (m n : Module) : Prop where
  name : m.name = n.name
  span : m.span = n.span
  items : List.Forall₂ (Item.Alike settings) m.items n.items

/-! ## Names, types and accessibilities -/

theorem name_eq_iff {place place' : Span} {x y : Option Excerpt} {name name' : String}
    (hx : declaredName place x = .ok name) (hy : declaredName place' y = .ok name') :
    name = name' ↔ x.map (·.text) = y.map (·.text) := by
  obtain ⟨x, rfl, -, rfl⟩ := declaredName_eq_ok.1 hx
  obtain ⟨y, rfl, -, rfl⟩ := declaredName_eq_ok.1 hy
  simp

/-- The source of a type that this decides for. -/
def TypeOrigin.Means : TypeOrigin → TypeSource → Prop
  | .clause typeName, source => ∃ name, typeName = some name ∧ source = .written name
  | .hint text, source => ∃ type, Builtin.ofHint? text = some type ∧ source = .hinted type
  | .neither, source => source = .implicit

theorem means_typeOrigin {clause : Option AsClause} {hint : Option Excerpt} {source : TypeSource}
    (h : TypeSource.resolve clause hint = .ok source) : (typeOrigin clause hint).Means source := by
  match clause, hint with
  | some clause, _ =>
    obtain ⟨name, hn, rfl⟩ := TypeSource.ofAsClause_eq_ok.1 h
    exact ⟨name.text, by simp [hn], rfl⟩
  | none, some hint => exact TypeSource.ofHint_eq_ok.1 h
  | none, none => cases h; rfl

/-- What decides about a type and the source it decides for determine each other. -/
theorem TypeOrigin.Means.eq_iff {o o' : TypeOrigin} {source source' : TypeSource} (h : o.Means source)
    (h' : o'.Means source') : source = source' ↔ o = o' := by
  cases o with
  | clause =>
    obtain ⟨name, rfl, rfl⟩ := h
    cases o' with
    | clause => obtain ⟨name', rfl, rfl⟩ := h'; simp
    | hint => obtain ⟨type', -, rfl⟩ := h'; simp
    | neither => cases h'; simp
  | hint =>
    obtain ⟨type, ht, rfl⟩ := h
    cases o' with
    | clause => obtain ⟨name', rfl, rfl⟩ := h'; simp
    | hint =>
      obtain ⟨type', ht', rfl⟩ := h'
      rw [TypeSource.hinted.injEq, TypeOrigin.hint.injEq]
      constructor
      · rintro rfl
        exact Builtin.ofHint?_unique ht ht'
      · rintro rfl
        exact Option.some.inj (ht.symm.trans ht')
    | neither => cases h'; simp
  | neither =>
    cases h
    cases o' with
    | clause => obtain ⟨name', rfl, rfl⟩ := h'; simp
    | hint => obtain ⟨type', -, rfl⟩ := h'; simp
    | neither => cases h'; simp

/-- The recorded type tells apart what decided about it. -/
theorem type_eq_iff {clause clause' : Option AsClause} {hint hint' : Option Excerpt} {type type' : DeclaredType}
    (h : DeclaredType.resolve clause hint = .ok type) (h' : DeclaredType.resolve clause' hint' = .ok type') :
    type = type' ↔ typeOrigin clause hint = typeOrigin clause' hint' := by
  obtain ⟨source, hs, rfl⟩ := map_eq_ok.1 h
  obtain ⟨source', hs', rfl⟩ := map_eq_ok.1 h'
  rw [← (means_typeOrigin hs).eq_iff (means_typeOrigin hs')]
  exact ⟨TypeSource.declared_injective, congrArg TypeSource.declared⟩

/-- Two placements give the same accessibility wherever both give one. -/
def SameAccess (p q : Placement) : Prop :=
  ∀ a b, p.accessibility = .ok a → q.accessibility = .ok b → a = b

theorem sameAccess_of_text {p q : Placement} (hl : p.isLocal = q.isLocal) (hd : p.default = q.default)
    (hv : p.visibility.map (·.text) = q.visibility.map (·.text)) : SameAccess p q := by
  intro a b ha hb
  unfold Placement.accessibility at ha hb
  rw [← hl, ← hd] at hb
  cases hp : p.isLocal with
  | true =>
    rw [hp, Accessibility.resolve_local] at ha hb
    exact Except.ok.inj (ha.symm.trans hb)
  | false =>
    rw [hp, Accessibility.resolve_eq_ok] at ha hb
    exact ha.unique hv hb

/-! ## Entries -/

theorem variable_eq_iff {e f : VariableEntry} {p q : Placement} {n o : Node} (hn : e.declare p = .ok n)
    (ho : f.declare q = .ok o) (hs : p.scope = q.scope) (ha : SameAccess p q) : n = o ↔ e.Alike f := by
  obtain ⟨name, type, a, hname, htype, hacc, rfl⟩ := VariableEntry.declare_eq_ok.1 hn
  obtain ⟨name', type', a', hname', htype', hacc', rfl⟩ := VariableEntry.declare_eq_ok.1 ho
  obtain rfl := ha a a' hacc hacc'
  rw [VariableEntry.alike_iff, ← name_eq_iff hname hname', ← type_eq_iff htype htype']
  simp [hs]

theorem constant_eq_iff {e f : ConstantEntry} {p q : Placement} {n o : Node} (hn : e.declare p = .ok n)
    (ho : f.declare q = .ok o) (hs : p.scope = q.scope) (ha : SameAccess p q) : n = o ↔ e.Alike f := by
  obtain ⟨name, v, type, a, hname, hv, htype, hacc, rfl⟩ := ConstantEntry.declare_eq_ok.1 hn
  obtain ⟨name', v', type', a', hname', hv', htype', hacc', rfl⟩ := ConstantEntry.declare_eq_ok.1 ho
  obtain rfl := ha a a' hacc hacc'
  rw [ConstantEntry.alike_iff, ← name_eq_iff hname hname', ← type_eq_iff htype htype']
  simp [hs, hv, hv']

/-- Lists read member by member are read as the same nodes exactly if their
members are, one by one. -/
theorem all_eq_iff {α : Type} {read read' : α → Except Fault Node} {alike : α → α → Prop}
    (each : ∀ a b n o, read a = .ok n → read' b = .ok o → (n = o ↔ alike a b)) {as bs : List α} {ns os : List Node}
    (hn : List.Forall₂ (fun a n => read a = .ok n) as ns) (ho : List.Forall₂ (fun b o => read' b = .ok o) bs os) :
    ns = os ↔ List.Forall₂ alike as bs := by
  induction hn generalizing bs os with
  | nil => cases ho <;> simp
  | cons h _ ih =>
    cases ho with
    | nil => simp
    | cons h' ho => rw [List.cons.injEq, List.forall₂_cons, ih ho, each _ _ _ _ h h']

/-! ## Statements, procedures and modules -/

theorem declaration_eq_iff {d e : Declaration} {scope : Scope} {settings : Settings} {n o : Node}
    (hn : d.declare scope settings = .ok n) (ho : e.declare scope settings = .ok o) :
    n = o ↔ d.Alike scope.isProcedure e := by
  match d, e with
  | .variables s, .variables t =>
    obtain ⟨cs, hcs, rfl⟩ := VariableStatement.declare_eq_ok.1 hn
    obtain ⟨cs', hcs', rfl⟩ := VariableStatement.declare_eq_ok.1 ho
    have hlocal : (s.placement scope settings).isLocal = (t.placement scope settings).isLocal ↔
        (scope.isProcedure = false → s.localKeyword.isSome = t.localKeyword.isSome) := by
      cases scope <;> simp [VariableStatement.placement, VariableStatement.isLocal]
    -- The symbols have one accessibility as soon as locality and the written visibility agree.
    have hentries (hl : (s.placement scope settings).isLocal = (t.placement scope settings).isLocal)
        (hv : s.visibility.map (·.text) = t.visibility.map (·.text)) :
        cs = cs' ↔ List.Forall₂ VariableEntry.Alike s.entries t.entries := by
      refine all_eq_iff (fun e f n o hn ho => ?_) hcs hcs'
      exact variable_eq_iff hn ho rfl (sameAccess_of_text hl rfl hv)
    constructor
    · intro h
      simp only [Node.mk.injEq, Entity.varDeclaration.injEq, Entity.VariableDeclaration.mk.injEq] at h
      obtain ⟨hspan, -, ⟨hl, hv, he⟩, hc⟩ := h
      exact .varStatement hspan hv (hlocal.1 hl) he ((hentries hl hv).1 hc)
    · intro h
      cases h with
      | varStatement hspan hv hl he hc => rw [hspan, hv, he, hlocal.2 hl, (hentries (hlocal.2 hl) hv).2 hc]
  | .constants s, .constants t =>
    obtain ⟨cs, hcs, rfl⟩ := ConstantStatement.declare_eq_ok.1 hn
    obtain ⟨cs', hcs', rfl⟩ := ConstantStatement.declare_eq_ok.1 ho
    have hentries (hv : s.visibility.map (·.text) = t.visibility.map (·.text)) :
        cs = cs' ↔ List.Forall₂ ConstantEntry.Alike s.entries t.entries := by
      refine all_eq_iff (fun e f n o hn ho => ?_) hcs hcs'
      exact constant_eq_iff hn ho rfl (sameAccess_of_text rfl rfl hv)
    constructor
    · intro h
      simp only [Node.mk.injEq, Entity.constDeclaration.injEq, Entity.ConstantDeclaration.mk.injEq] at h
      obtain ⟨hspan, -, ⟨-, hv⟩, hc⟩ := h
      exact .constStatement hspan hv ((hentries hv).1 hc)
    · intro h
      cases h with
      | constStatement hspan hv hc => rw [hspan, hv, (hentries hv).2 hc]; rfl
  | .variables s, .constants t =>
    obtain ⟨cs, -, rfl⟩ := VariableStatement.declare_eq_ok.1 hn
    obtain ⟨cs', -, rfl⟩ := ConstantStatement.declare_eq_ok.1 ho
    exact ⟨fun h => by simp at h, fun h => nomatch h⟩
  | .constants s, .variables t =>
    obtain ⟨cs, -, rfl⟩ := ConstantStatement.declare_eq_ok.1 hn
    obtain ⟨cs', -, rfl⟩ := VariableStatement.declare_eq_ok.1 ho
    exact ⟨fun h => by simp at h, fun h => nomatch h⟩

/-- A declaration's node is that of a statement. -/
theorem declaration_entity {d : Declaration} {scope : Scope} {settings : Settings} {n : Node}
    (h : d.declare scope settings = .ok n) : n.entity.procedure? = none := by
  match d with
  | .variables s => obtain ⟨cs, -, rfl⟩ := VariableStatement.declare_eq_ok.1 h; rfl
  | .constants s => obtain ⟨cs, -, rfl⟩ := ConstantStatement.declare_eq_ok.1 h; rfl

theorem returnType_eq_iff {p q : Procedure} {type type' : Option DeclaredType} (hp : p.returnType = .ok type)
    (hq : q.returnType = .ok type') (hk : p.kind = q.kind) :
    type = type' ↔ (p.kind.returnsValue → typeOrigin p.asClause p.typeHint = typeOrigin q.asClause q.typeHint) := by
  unfold Procedure.returnType at hp hq
  rw [← hk] at hq
  cases hr : p.kind.returnsValue with
  | false =>
    simp only [hr, Bool.false_eq_true, if_false, Except.ok.injEq] at hp hq
    simp [← hp, ← hq]
  | true =>
    rw [hr, if_pos rfl] at hp hq
    obtain ⟨t, ht, rfl⟩ := map_eq_ok.1 hp
    obtain ⟨t', ht', rfl⟩ := map_eq_ok.1 hq
    simp [type_eq_iff ht ht']

theorem procedure_eq_iff {p q : Procedure} {scope : Scope} {settings : Settings} {n o : Node}
    (hn : p.declare scope settings = .ok n) (ho : q.declare scope settings = .ok o) :
    n = o ↔ p.Alike settings q := by
  obtain ⟨name, a, type, cs, hname, ha, htype, hcs, rfl⟩ := Procedure.declare_eq_ok.1 hn
  obtain ⟨name', a', type', cs', hname', ha', htype', hcs', rfl⟩ := Procedure.declare_eq_ok.1 ho
  rw [Accessibility.resolve_eq_ok] at ha ha'
  have hnames := name_eq_iff hname hname'
  -- Two bodies are read in the same scope only where the names agree.
  have hbody (h : name = name') : cs = cs' ↔ List.Forall₂ (Declaration.Alike true) p.body q.body := by
    subst h
    refine all_eq_iff (fun d e n o hn ho => ?_) hcs hcs'
    exact declaration_eq_iff hn ho
  constructor
  · intro h
    simp only [Node.mk.injEq, Entity.procedure.injEq, Entity.Procedure.mk.injEq, true_and] at h
    obtain ⟨hspan, ⟨hm, hk, hst, rfl, ht⟩, hc⟩ := h
    exact ⟨hspan, hk, hst, hnames.1 hm, ⟨a, ha, ha'⟩, (returnType_eq_iff htype htype' hk).1 ht, (hbody hm).1 hc⟩
  · rintro ⟨hspan, hk, hst, hm, ⟨b, hb, hb'⟩, ht, hc⟩
    rw [hnames.2 hm, hspan, hst, (returnType_eq_iff htype htype' hk).2 ht, hk, ha.unique rfl hb, ha'.unique rfl hb',
      (hbody (hnames.2 hm)).2 hc]

theorem item_eq_iff {i j : Item} {scope : Scope} {settings : Settings} {n o : Node}
    (hscope : scope.isProcedure = false) (hn : i.declare scope settings = .ok n)
    (ho : j.declare scope settings = .ok o) : n = o ↔ i.Alike settings j := by
  match i, j with
  | .declaration d, .declaration e =>
    rw [declaration_eq_iff hn ho, hscope]
    exact ⟨.declaration, fun h => by cases h; assumption⟩
  | .procedure p, .procedure q =>
    rw [procedure_eq_iff hn ho]
    exact ⟨.procedure, fun h => by cases h; assumption⟩
  | .declaration d, .procedure q =>
    have hd := declaration_entity hn
    obtain ⟨_, _, _, _, -, -, -, -, rfl⟩ := Procedure.declare_eq_ok.1 ho
    constructor
    · rintro rfl
      cases hd
    · intro h
      cases h
  | .procedure p, .declaration e =>
    have he := declaration_entity ho
    obtain ⟨_, _, _, _, -, -, -, -, rfl⟩ := Procedure.declare_eq_ok.1 hn
    constructor
    · rintro rfl
      cases he
    · intro h
      cases h

/-! ## Main theorem -/

/-- Two modules that can be built under the same settings have the same tree
exactly if they are alike. -/
theorem tree_eq_iff_alike {m m' : Module} {settings : Settings} {root root' : Node}
    (h : m.declare settings = .ok root) (h' : m'.declare settings = .ok root') :
    root = root' ↔ m.Alike settings m' := by
  obtain ⟨cs, hcs, rfl⟩ := Module.declare_eq_ok.1 h
  obtain ⟨cs', hcs', rfl⟩ := Module.declare_eq_ok.1 h'
  have hitems (hm : m.name = m'.name) : cs = cs' ↔ List.Forall₂ (Item.Alike settings) m.items m'.items := by
    rw [← hm] at hcs'
    refine all_eq_iff (fun i j n o hn ho => ?_) hcs hcs'
    exact item_eq_iff rfl hn ho
  constructor
  · intro he
    simp only [Node.mk.injEq, Scope.module.injEq, Entity.module.injEq] at he
    obtain ⟨hspan, hm, -, hc⟩ := he
    exact ⟨hm, hspan, (hitems hm).1 hc⟩
  · rintro ⟨hm, hspan, hc⟩
    rw [(hitems hm).2 hc, hm, hspan]

/-- A function that counts its calls, in a variable under either local keyword
and with or without a type hint. -/
def counter (keyword : LocalKeyword) (typeHint : Option Excerpt) : Module where
  name := "Counter"
  span := ⟨0, 60⟩
  items := [
    .procedure {
      span := ⟨0, 60⟩
      kind := .function
      identifier := some ⟨⟨9, 13⟩, "Next"⟩
      asClause := some ⟨⟨16, 23⟩, false, some ⟨⟨19, 23⟩, "Long"⟩⟩
      body := [
        .variables {
          span := ⟨24, 45⟩
          localKeyword := some keyword
          entries := [{ span := ⟨31, 45⟩, identifier := some ⟨⟨31, 36⟩, "count"⟩, typeHint,
                        asClause := some ⟨⟨37, 45⟩, false, some ⟨⟨40, 45⟩, "Long"⟩⟩ }] }] }]

/-- Under another name the ledger has another tree, and the two are not alike.
The counter is a different module with `Static` in place of `Dim` and a hint
beside the As clause, but has the same tree, and the two are alike. -/
theorem tree_eq_iff_alike_of_ledger :
    (∃ root root', ledger.declare {} = .ok root ∧ Module.declare { ledger with name := "Ledger" } {} = .ok root' ∧
      root ≠ root' ∧ ¬ ledger.Alike {} { ledger with name := "Ledger" }) ∧
    ∃ root, (counter .dim none).declare {} = .ok root ∧
      (counter .static (some ⟨⟨36, 37⟩, "&"⟩)).declare {} = .ok root ∧
      counter .dim none ≠ counter .static (some ⟨⟨36, 37⟩, "&"⟩) ∧
      (counter .dim none).Alike {} (counter .static (some ⟨⟨36, 37⟩, "&"⟩)) := by
  constructor
  · obtain ⟨root, h⟩ : ∃ root, ledger.declare {} = .ok root := ⟨_, rfl⟩
    obtain ⟨root', h'⟩ : ∃ root', Module.declare { ledger with name := "Ledger" } {} = .ok root' := ⟨_, rfl⟩
    have hne : root ≠ root' := by
      rintro rfl
      exact absurd (h.trans h'.symm) (by decide)
    exact ⟨root, root', h, h', hne, mt (tree_eq_iff_alike h h').2 hne⟩
  · exact ⟨_, rfl, rfl, by decide, (tree_eq_iff_alike rfl rfl).1 rfl⟩

end DeclTree.Source
