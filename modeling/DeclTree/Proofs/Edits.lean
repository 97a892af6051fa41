import DeclTree.Proofs.Reading
import Mathlib.Logic.Relation
/-!
# Edits that do not show

Some of what is written in a module is never looked at: the visibility clause
of a statement that is local or has no entries, the choice between the local
keywords, a type hint beside an As clause, the types of procedures without a
value, and most places. `Module.Edit` is one edit at such a part. However many
of them are made, the module is built as before or not built for the same fault
as before. Only the nodes of the statements whose own clauses were edited show
it, in the visibility that they repeat.
-/
namespace DeclTree

/-- Where a statement is: it is an item of the module, or a statement in the
body of the procedure that is the item. -/
inductive Place
  | head (item : Nat)
  | body (item statement : Nat)
deriving DecidableEq

namespace Source

/-! ## Edits -/

/-- An identifier with a name in it is moved. -/
inductive IdentifierEdit : Option Excerpt → Option Excerpt → Prop
  | moved {x : Excerpt} (span : Span) (h : x.text ≠ "") :
      IdentifierEdit (some x) (some { x with span })

/-- An edit of an As clause and a type hint. The mark `New` is free only where
it does not count. -/
inductive TypeEdit (newCounts : Bool) :
    Option AsClause → Option Excerpt → Option AsClause → Option Excerpt → Prop
  | moved {clause : AsClause} {x : Excerpt} {hint : Option Excerpt} (span : Span) (h : clause.typeName = some x) :
      TypeEdit newCounts (some clause) hint (some { clause with typeName := some { x with span } }) hint
  | hint {clause : AsClause} {hint : Option Excerpt} (hint' : Option Excerpt) :
      TypeEdit newCounts (some clause) hint (some clause) hint'
  | mark {clause : AsClause} {hint : Option Excerpt} (isNew : Bool) (h : newCounts = false) :
      TypeEdit newCounts (some clause) hint (some { clause with isNew }) hint

/-- An edit of one variable. -/
inductive VariableEntry.Edit : VariableEntry → VariableEntry → Prop
  | identifier {e : VariableEntry} {identifier : Option Excerpt} (h : IdentifierEdit e.identifier identifier) :
      Edit e { e with identifier }
  | type {e : VariableEntry} {asClause : Option AsClause} {typeHint : Option Excerpt}
      (h : TypeEdit true e.asClause e.typeHint asClause typeHint) : Edit e { e with asClause, typeHint }
  | subscripts {e : VariableEntry} {span : Span} (span' : Span) (h : e.subscripts = some span) :
      Edit e { e with subscripts := some span' }

/-- An edit of one constant. -/
inductive ConstantEntry.Edit : ConstantEntry → ConstantEntry → Prop
  | identifier {e : ConstantEntry} {identifier : Option Excerpt} (h : IdentifierEdit e.identifier identifier) :
      Edit e { e with identifier }
  | type {e : ConstantEntry} {asClause : Option AsClause} {typeHint : Option Excerpt}
      (h : TypeEdit false e.asClause e.typeHint asClause typeHint) : Edit e { e with asClause, typeHint }
  | value {e : ConstantEntry} {x : Excerpt} (span : Span) (h : e.value = some x) :
      Edit e { e with value := some { x with span } }

/-- An edit of one statement. Its visibility clause may be put in, taken out or
rewritten only if the statement is a chosen one. -/
inductive Declaration.Edit (inBody chosen : Bool) : Declaration → Declaration → Prop
  | varVisibility {s : VariableStatement} (visibility : Option Excerpt) (hc : chosen = true)
      (h : inBody = true ∨ s.localKeyword ≠ none ∨ s.entries = []) :
      Edit inBody chosen (.variables s) (.variables { s with visibility })
  | constVisibility {s : ConstantStatement} (visibility : Option Excerpt) (hc : chosen = true)
      (h : inBody = true ∨ s.entries = []) : Edit inBody chosen (.constants s) (.constants { s with visibility })
  | exchange {s : VariableStatement} {keyword : LocalKeyword} (keyword' : LocalKeyword)
      (h : s.localKeyword = some keyword) :
      Edit inBody chosen (.variables s) (.variables { s with localKeyword := some keyword' })
  | localKeyword {s : VariableStatement} (localKeyword : Option LocalKeyword) (h : inBody = true) :
      Edit inBody chosen (.variables s) (.variables { s with localKeyword })
  | var {s : VariableStatement} {before after : List VariableEntry} {e f : VariableEntry}
      (hs : s.entries = before ++ e :: after) (h : e.Edit f) :
      Edit inBody chosen (.variables s) (.variables { s with entries := before ++ f :: after })
  | const {s : ConstantStatement} {before after : List ConstantEntry} {e f : ConstantEntry}
      (hs : s.entries = before ++ e :: after) (h : e.Edit f) :
      Edit inBody chosen (.constants s) (.constants { s with entries := before ++ f :: after })

/-- An edit of one procedure, where some statements of its body are chosen. -/
inductive Procedure.Edit (chosen : Nat → Bool) : Procedure → Procedure → Prop
  | identifier {p : Procedure} {identifier : Option Excerpt} (h : IdentifierEdit p.identifier identifier) :
      Edit chosen p { p with identifier }
  | type {p : Procedure} {asClause : Option AsClause} {typeHint : Option Excerpt}
      (h : TypeEdit false p.asClause p.typeHint asClause typeHint) : Edit chosen p { p with asClause, typeHint }
  | valueless {p : Procedure} (asClause : Option AsClause) (typeHint : Option Excerpt)
      (h : p.kind = .sub ∨ p.kind = .propertyLet ∨ p.kind = .propertySet) :
      Edit chosen p { p with asClause, typeHint }
  | body {p : Procedure} {before after : List Declaration} {d e : Declaration}
      (hp : p.body = before ++ d :: after) (h : d.Edit true (chosen before.length) e) :
      Edit chosen p { p with body := before ++ e :: after }

/-- An edit of one module, where some of its statements are chosen. -/
inductive Module.Edit (chosen : Place → Bool) : Module → Module → Prop
  | declaration {m : Module} {before after : List Item} {d e : Declaration}
      (hm : m.items = before ++ .declaration d :: after) (h : d.Edit false (chosen (.head before.length)) e) :
      Edit chosen m { m with items := before ++ .declaration e :: after }
  | procedure {m : Module} {before after : List Item} {p q : Procedure}
      (hm : m.items = before ++ .procedure p :: after)
      (h : p.Edit (fun statement => chosen (.body before.length statement)) q) :
      Edit chosen m { m with items := before ++ .procedure q :: after }

end Source

/-! ## Trees without the visibilities of chosen statements -/

/-- The entity without a written visibility. -/
def Entity.hideVisibility : Entity → Entity
  | .varDeclaration d => .varDeclaration { d with rawVisibility := none }
  | .constDeclaration d => .constDeclaration { d with rawVisibility := none }
  | .module name => .module name
  | .procedure p => .procedure p
  | .var v => .var v
  | .const c => .const c

namespace Node

/-- The node without its written visibility, if it is chosen. -/
def hideIf (chosen : Bool) (n : Node) : Node :=
  if chosen then { n with entity := n.entity.hideVisibility } else n

/-- The node with the written visibilities of chosen children hidden. -/
def hideBody (chosen : Nat → Bool) (n : Node) : Node :=
  { n with children := n.children.mapIdx fun i c => c.hideIf (chosen i) }

/-- An item of a module with its written visibility and those in its body
hidden where they are chosen. -/
def hideItem (chosen : Place → Bool) (item : Nat) (n : Node) : Node :=
  (n.hideIf (chosen (.head item))).hideBody fun statement => chosen (.body item statement)

/-- The tree of a module with the written visibilities of chosen statements
hidden. -/
def hideAt (chosen : Place → Bool) (root : Node) : Node :=
  { root with children := root.children.mapIdx (hideItem chosen) }

theorem hideBody_hideIf (b : Bool) (chosen : Nat → Bool) (n : Node) :
    (n.hideIf b).hideBody chosen = (n.hideBody chosen).hideIf b := by
  cases b <;> rfl

end Node

/-! ## Outcomes -/

section Outcomes
variable {α β γ : Type}

/-- Outcomes that are the same up to a function of their values. -/
theorem map_eq_map {x y : Except Fault α} {f : α → β} (h : f <$> x = f <$> y) :
    (∃ fault, x = .error fault ∧ y = .error fault) ∨ ∃ a b, x = .ok a ∧ y = .ok b ∧ f a = f b := by
  cases x with
  | error fault =>
    cases y with
    | error fault' => cases h; exact .inl ⟨fault, rfl, rfl⟩
    | ok b => cases h
  | ok a =>
    cases y with
    | error fault => cases h
    | ok b => exact .inr ⟨a, b, rfl, rfl, Except.ok.inj h⟩

/-- Outcomes that are the same up to a function are so up to what is made of its
value. -/
theorem map_comp_eq_map_comp {x y : Except Fault α} {f : α → β} (g : β → γ) (h : f <$> x = f <$> y) :
    (fun a => g (f a)) <$> x = (fun a => g (f a)) <$> y := by
  rw [← Functor.map_map f g, ← Functor.map_map f g, h]

theorem mapM_cons_mapIdx (g : α → Except Fault Node) (f : Nat → Node → Node) (a : α) (as : List α) :
    List.mapIdx f <$> (a :: as).mapM g =
      f 0 <$> g a >>= fun n => (n :: ·) <$> List.mapIdx (fun i => f (i + 1)) <$> as.mapM g := by
  simp only [List.mapM_cons, map_bind, bind_map_left, bind_pure_comp, Functor.map_map, List.mapIdx_cons]

/-- Where one member of a list is edited, the reading of the list differs no
more than that of the member, seen through the function at the member's place. -/
theorem mapM_mapIdx_edit {g : α → Except Fault Node} {f : Nat → Node → Node} {a b : α} {before after : List α}
    (h : f before.length <$> g a = f before.length <$> g b) :
    List.mapIdx f <$> (before ++ a :: after).mapM g = List.mapIdx f <$> (before ++ b :: after).mapM g := by
  induction before generalizing f with
  | nil =>
    rw [List.length_nil] at h
    rw [List.nil_append, List.nil_append, mapM_cons_mapIdx, mapM_cons_mapIdx, h]
  | cons x before ih =>
    rw [List.cons_append, List.cons_append, mapM_cons_mapIdx, mapM_cons_mapIdx, ih h]

theorem mapM_edit {g : α → Except Fault β} {a b : α} (h : g a = g b) (before after : List α) :
    (before ++ a :: after).mapM g = (before ++ b :: after).mapM g := by
  rw [List.mapM_append, List.mapM_append, List.mapM_cons, List.mapM_cons, h]

end Outcomes

namespace Source

/-! ## One edit -/

theorem declaredName_edit {x y : Option Excerpt} (h : IdentifierEdit x y) (place : Span) :
    declaredName place x = declaredName place y := by
  cases h with
  | moved span h => rw [declaredName_some, declaredName_some, if_neg h, if_neg h]

theorem resolve_edit {newCounts : Bool} {clause clause' : Option AsClause} {hint hint' : Option Excerpt}
    (h : TypeEdit newCounts clause hint clause' hint') :
    DeclaredType.resolve clause hint = DeclaredType.resolve clause' hint' := by
  cases h with
  | moved span h => simp [DeclaredType.resolve, TypeSource.ofAsClause, h, Except.map]
  | hint hint' => rfl
  | mark isNew h => rfl

theorem isNew_edit {clause clause' : Option AsClause} {hint hint' : Option Excerpt}
    (h : TypeEdit true clause hint clause' hint') : clause.any (·.isNew) = clause'.any (·.isNew) := by
  cases h with
  | moved span h => rfl
  | hint hint' => rfl
  | mark isNew h => cases h

theorem VariableEntry.declare_edit {e f : VariableEntry} (h : e.Edit f) (place : Placement) :
    e.declare place = f.declare place := by
  unfold VariableEntry.declare
  cases h with
  | identifier h => rw [declaredName_edit h]
  | type h => rw [resolve_edit h, isNew_edit h]
  | subscripts span' h => rw [h]; rfl

theorem ConstantEntry.declare_edit {e f : ConstantEntry} (h : e.Edit f) (place : Placement) :
    e.declare place = f.declare place := by
  unfold ConstantEntry.declare
  cases h with
  | identifier h => rw [declaredName_edit h]
  | type h => rw [resolve_edit h]
  | value span h => rw [h]; rfl

section Statements
variable {scope : Scope} {settings : Settings}

theorem VariableStatement.declare_eq_map (s : VariableStatement) : s.declare scope settings =
    (fun children => ⟨s.span, scope, .varDeclaration ⟨(s.placement scope settings).isLocal,
      s.visibility.map (·.text), s.withEvents⟩, children⟩) <$>
        s.entries.mapM (·.declare (s.placement scope settings)) :=
  bind_pure_comp _ _

theorem ConstantStatement.declare_eq_map (s : ConstantStatement) : s.declare scope settings =
    (fun children => ⟨s.span, scope, .constDeclaration ⟨(s.placement scope settings).isLocal,
      s.visibility.map (·.text)⟩, children⟩) <$>
        s.entries.mapM (·.declare (s.placement scope settings)) :=
  bind_pure_comp _ _

/-- Whatever the entries are read as, two statements are built alike if their
placements make no difference to an entry or there is none, and their nodes
differ at most in the visibility that they repeat. -/
theorem hideIf_statement {α : Type} (read : Placement → α → Except Fault Node) {p q : Placement} {entries : List α}
    {node node' : List Node → Node} (h : read p = read q ∨ entries = [])
    (hnode : ∀ children, (node children).hideIf true = (node' children).hideIf true) :
    Node.hideIf true <$> node <$> entries.mapM (read p) = Node.hideIf true <$> node' <$> entries.mapM (read q) := by
  have he : entries.mapM (read p) = entries.mapM (read q) := by
    rcases h with h | rfl
    · rw [h]
    · rfl
  rw [Functor.map_map, Functor.map_map, he]
  exact congrArg (· <$> entries.mapM (read q)) (funext hnode)

theorem VariableStatement.declare_visibility {s : VariableStatement} (visibility : Option Excerpt)
    (h : (s.placement scope settings).isLocal = true ∨ s.entries = []) :
    Node.hideIf true <$> s.declare scope settings =
      Node.hideIf true <$> VariableStatement.declare { s with visibility } scope settings := by
  rw [declare_eq_map, declare_eq_map]
  refine hideIf_statement (fun p (e : VariableEntry) => e.declare p) ?_ fun _ => rfl
  exact h.imp_left fun hl => VariableEntry.declare_of_isLocal hl hl rfl

theorem ConstantStatement.declare_visibility {s : ConstantStatement} (visibility : Option Excerpt)
    (h : (s.placement scope settings).isLocal = true ∨ s.entries = []) :
    Node.hideIf true <$> s.declare scope settings =
      Node.hideIf true <$> ConstantStatement.declare { s with visibility } scope settings := by
  rw [declare_eq_map, declare_eq_map]
  refine hideIf_statement (fun p (e : ConstantEntry) => e.declare p) ?_ fun _ => rfl
  exact h.imp_left fun hl => ConstantEntry.declare_of_isLocal hl hl rfl

theorem VariableStatement.declare_localKeyword {s : VariableStatement} (localKeyword : Option LocalKeyword)
    (h : scope.isProcedure = true ∨ s.localKeyword.isSome = localKeyword.isSome) :
    s.declare scope settings = VariableStatement.declare { s with localKeyword } scope settings := by
  -- Which local keyword it is has no say, and in a procedure not even whether there is one.
  have hp : s.placement scope settings = VariableStatement.placement { s with localKeyword } scope settings := by
    unfold VariableStatement.placement VariableStatement.isLocal
    rcases h with h | h <;> simp [h]
  unfold VariableStatement.declare
  rw [hp]

end Statements

theorem Declaration.declare_edit {inBody chosen : Bool} {d e : Declaration} (h : d.Edit inBody chosen e)
    {scope : Scope} (hscope : scope.isProcedure = inBody) (settings : Settings) :
    Node.hideIf chosen <$> d.declare scope settings = Node.hideIf chosen <$> e.declare scope settings := by
  cases h with
  | @varVisibility s visibility hc h =>
    subst hc
    refine VariableStatement.declare_visibility visibility ?_
    rcases h with h | h | h
    · exact .inl (by simp [VariableStatement.placement, hscope, h])
    · exact .inl (by simp [VariableStatement.placement, VariableStatement.isLocal, Option.isSome_iff_ne_none.2 h])
    · exact .inr h
  | constVisibility visibility hc h =>
    subst hc
    refine ConstantStatement.declare_visibility visibility ?_
    rcases h with h | h
    · exact .inl (hscope.trans h)
    · exact .inr h
  | exchange keyword' h =>
    exact congrArg _ (VariableStatement.declare_localKeyword (some keyword') (.inr (by rw [h]; rfl)))
  | localKeyword localKeyword h =>
    exact congrArg _ (VariableStatement.declare_localKeyword localKeyword (.inl (hscope.trans h)))
  | var hs h =>
    refine congrArg _ ?_
    simp only [Declaration.declare, VariableStatement.declare_eq_map, hs]
    rw [mapM_edit (VariableEntry.declare_edit h _)]
    rfl
  | const hs h =>
    refine congrArg _ ?_
    simp only [Declaration.declare, ConstantStatement.declare_eq_map, hs]
    rw [mapM_edit (ConstantEntry.declare_edit h _)]
    rfl

section Procedures
variable {chosen : Nat → Bool} {p q : Procedure}

/-- Procedures without a value have no type, whatever is written. -/
theorem Procedure.returnType_edit {asClause : Option AsClause} {typeHint : Option Excerpt}
    (h : p.kind.returnsValue = false ∨
      DeclaredType.resolve p.asClause p.typeHint = DeclaredType.resolve asClause typeHint) :
    p.returnType = Procedure.returnType { p with asClause, typeHint } := by
  unfold Procedure.returnType
  rcases h with h | h
  · rw [if_neg (by simp [h]), if_neg (by simp [h])]
  · rw [h]

theorem Procedure.declare_body {before after : List Declaration} {d e : Declaration} {scope : Scope}
    {settings : Settings} (hp : p.body = before ++ d :: after) (h : d.Edit true (chosen before.length) e) :
    Node.hideBody chosen <$> p.declare scope settings =
      Node.hideBody chosen <$> Procedure.declare { p with body := before ++ e :: after } scope settings := by
  have body : ∀ name : String,
      List.mapIdx (fun i c => c.hideIf (chosen i)) <$>
          p.body.mapM (fun d : Declaration => d.declare (.procedure scope.moduleName name) settings) =
        List.mapIdx (fun i c => c.hideIf (chosen i)) <$>
          (before ++ e :: after).mapM fun d : Declaration => d.declare (.procedure scope.moduleName name) settings := by
    intro name
    rw [hp]
    exact mapM_mapIdx_edit (Declaration.declare_edit h rfl settings)
  unfold Procedure.declare
  simp only [map_bind, bind_pure_comp, Functor.map_map]
  refine bind_congr fun name => bind_congr fun accessibility => bind_congr fun type => ?_
  exact map_comp_eq_map_comp (fun children => Node.mk p.span scope
    (.procedure ⟨name, p.kind, p.isStatic, accessibility, type⟩) children) (body name)

theorem Procedure.declare_edit (h : p.Edit chosen q) (scope : Scope) (settings : Settings) :
    Node.hideBody chosen <$> p.declare scope settings = Node.hideBody chosen <$> q.declare scope settings := by
  cases h with
  | identifier h =>
    refine congrArg _ ?_
    unfold Procedure.declare
    rw [declaredName_edit h]
    rfl
  | type h =>
    refine congrArg _ ?_
    unfold Procedure.declare
    rw [Procedure.returnType_edit (.inr (resolve_edit h))]
  | valueless asClause typeHint h =>
    have hv : p.kind.returnsValue = false := by
      rcases h with h | h | h <;> rw [h] <;> rfl
    refine congrArg _ ?_
    unfold Procedure.declare
    rw [Procedure.returnType_edit (.inl hv)]
  | body hp h => exact Procedure.declare_body hp h

end Procedures

section Modules
variable {chosen : Place → Bool} {m m' : Module}

theorem Module.declare_item {before after : List Item} {x y : Item} {settings : Settings}
    (hm : m.items = before ++ x :: after)
    (h : Node.hideItem chosen before.length <$> x.declare (.module m.name) settings =
      Node.hideItem chosen before.length <$> y.declare (.module m.name) settings) :
    Node.hideAt chosen <$> m.declare settings =
      Node.hideAt chosen <$> Module.declare { m with items := before ++ y :: after } settings := by
  have items : List.mapIdx (Node.hideItem chosen) <$>
        m.items.mapM (fun i : Item => i.declare (.module m.name) settings) =
      List.mapIdx (Node.hideItem chosen) <$>
        (before ++ y :: after).mapM fun i : Item => i.declare (.module m.name) settings := by
    rw [hm]
    exact mapM_mapIdx_edit h
  unfold Module.declare
  simp only [bind_pure_comp, Functor.map_map]
  exact map_comp_eq_map_comp (fun children => Node.mk m.span (.module m.name) (.module m.name) children) items

theorem Module.declare_edit (h : m.Edit chosen m') (settings : Settings) :
    Node.hideAt chosen <$> m.declare settings = Node.hideAt chosen <$> m'.declare settings := by
  cases h with
  | @declaration before _ _ _ hm h =>
    refine Module.declare_item hm ?_
    have statement := @Declaration.declare_edit _ _ _ _ h (.module m.name) rfl settings
    exact map_comp_eq_map_comp (Node.hideBody fun i => chosen (.body before.length i)) statement
  | @procedure before _ p q hm h =>
    refine Module.declare_item hm ?_
    have procedure := Procedure.declare_edit h (.module m.name) settings
    have item := map_comp_eq_map_comp (Node.hideIf (chosen (.head before.length))) procedure
    -- the item's own visibility is hidden first, which comes to the same
    simp only [← Node.hideBody_hideIf] at item
    exact item

end Modules

/-! ## Main theorem -/

/-- However many edits are made, the module fails as before or is built as
before, and only the statements whose own visibility clauses were edited show
it, in the visibility that they repeat. -/
theorem edits_do_not_show {chosen : Place → Bool} {m m' : Module}
    (h : Relation.ReflTransGen (Module.Edit chosen) m m') (settings : Settings) :
    (∃ fault, m.declare settings = .error fault ∧ m'.declare settings = .error fault) ∨
    ∃ root root', m.declare settings = .ok root ∧ m'.declare settings = .ok root' ∧
      root.hideAt chosen = root'.hideAt chosen := by
  refine map_eq_map ?_
  induction h with
  | refl => rfl
  | tail _ step ih => exact ih.trans (Module.declare_edit step settings)

/-- The ledger is not changed by an unknown hint where an As clause names the
type, and in the visibility alone by another unknown keyword in the function. -/
theorem edits_do_not_show_of_ledger : ∃ m root root',
    Relation.ReflTransGen (Module.Edit (· == .body 1 0)) ledger m ∧
    ledger.declare {} = .ok root ∧ m.declare {} = .ok root' ∧ root ≠ root' ∧
    root.hideAt (· == .body 1 0) = root'.hideAt (· == .body 1 0) := by
  have hint : Module.Edit (· == .body 1 0) ledger _ :=
    @Module.Edit.declaration _ ledger [] [_] _ _ rfl
      (@Declaration.Edit.var _ _ _ [_] [] _ _ rfl (.type (.hint (some ⟨⟨20, 21⟩, "?"⟩))))
  have edits : Relation.ReflTransGen (Module.Edit (· == .body 1 0)) ledger _ :=
    .head hint (.single (@Module.Edit.procedure _ _ [_] [] _ _ rfl
      (@Procedure.Edit.body _ _ [] [] _ _ rfl (.constVisibility (some ⟨⟨50, 51⟩, "Open"⟩) rfl (.inl rfl)))))
  rcases edits_do_not_show edits {} with ⟨fault, h, -⟩ | ⟨root, root', h, h', he⟩
  · cases h
  · refine ⟨_, root, root', edits, h, h', ?_, he⟩
    rintro rfl
    exact absurd (h.trans h'.symm) (by decide)

end Source

end DeclTree
