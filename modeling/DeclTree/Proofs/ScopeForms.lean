import DeclTree.Proofs.ScopeText
/-!
# Names, texts and scopes

A scope is made of its names, kept as a text with the place of a dot, and read
from a text. The three agree on all names and texts, whatever characters they
hold: what is cut out of the kept text are the names it was made of, scopes made
of other names are kept in another way, and reading finds exactly those scopes
that their texts spell without doubt.
-/
namespace DeclTree.Scope

/-! ## The kept text -/

/-- The text is these two names with a dot between them. The cuts before and
behind the dot lie inside the text and between characters, and give the names. -/
structure Joins (t : JoinedText) (m p : String) : Prop where
  text : t.text = m ++ "." ++ p
  separator : t.separator = some m.utf8ByteSize
  before_dot : (⟨m.utf8ByteSize⟩ : String.Pos.Raw).IsValid t.text
  behind_dot : (⟨m.utf8ByteSize + 1⟩ : String.Pos.Raw).IsValid t.text
  inside : m.utf8ByteSize + 1 ≤ t.text.utf8ByteSize
  moduleName : t.moduleName? = some m
  procedureName : t.procedureName? = some (some p)

theorem joins_procedure (m p : String) : Joins (procedure m p).joined m p where
  text := rfl
  separator := rfl
  before_dot := by
    have h := isValid_append m ("." ++ p)
    rwa [← String.append_assoc] at h
  behind_dot := by
    have h := isValid_append (m ++ ".") p
    rwa [utf8ByteSize_append_dot] at h
  inside := by
    have htext : (procedure m p).joined.text = m ++ "." ++ p := rfl
    rw [htext, String.utf8ByteSize_append, utf8ByteSize_append_dot]
    omega
  moduleName := moduleName?_joined (procedure m p)
  procedureName := procedureName?_joined (procedure m p)

/-! ## Reading -/

/-- The text is not empty and has no dot. -/
def IsName (t : String) : Prop := t ≠ "" ∧ '.' ∉ t.toList

theorem readable_iff {s : Scope} : s.Readable ↔ IsName s.moduleName ∧ s.procedureName? ≠ some "" := by
  constructor
  · rintro ⟨hne, hdot, hp⟩
    exact ⟨⟨hne, hdot⟩, hp⟩
  · rintro ⟨⟨hne, hdot⟩, hp⟩
    exact ⟨hne, hdot, hp⟩

theorem readable_module {m : String} : (module m).Readable ↔ IsName m := by
  simp [readable_iff]

theorem readable_procedure {m p : String} : (procedure m p).Readable ↔ IsName m ∧ p ≠ "" := by
  simp [readable_iff]

theorem parse?_eq_module_iff {t : String} : parse? t = some (module t) ↔ IsName t := by
  rw [parse?_eq_some_iff, readable_module]
  exact and_iff_right rfl

theorem parse?_eq_procedure_iff {t m p : String} :
    parse? t = some (procedure m p) ↔ t = m ++ "." ++ p ∧ IsName m ∧ p ≠ "" := by
  rw [parse?_eq_some_iff, readable_procedure, eq_comm]
  rfl

theorem parse?_eq_none_iff {t : String} :
    parse? t = none ↔ ¬ IsName t ∧ ¬ ∃ m p, t = m ++ "." ++ p ∧ IsName m ∧ p ≠ "" := by
  rw [Option.eq_none_iff_forall_ne_some]
  constructor
  · intro h
    exact ⟨fun ht => h _ (parse?_eq_module_iff.2 ht), fun ⟨m, p, hp⟩ => h _ (parse?_eq_procedure_iff.2 hp)⟩
  · rintro ⟨hm, hp⟩ s hs
    cases s with
    | module n =>
      obtain ⟨rfl, -⟩ := parse?_eq_some_iff.1 hs
      exact hm (parse?_eq_module_iff.1 hs)
    | procedure m p => exact hp ⟨m, p, parse?_eq_procedure_iff.1 hs⟩

/-! ## Main theorem -/

/-- Names, kept texts and reading agree. A procedure's scope is kept so that both
names can be cut out again, a module's as its name alone, and no two scopes are
kept alike. A text without dots names a module; a text with dots names a
procedure by what stands before and behind the first of them; no other text
names a scope, and none names a scope that has another text. A scope is read
back from its text exactly if its module's name has no dot and neither name is
empty. -/
theorem names_kept_and_read :
    (∀ m p, Joins (procedure m p).joined m p ∧ (procedure m p).moduleName = m ∧
      (procedure m p).procedureName? = some p) ∧
    (∀ n, (module n).joined = ⟨n, none⟩ ∧ (module n).moduleName = n ∧ (module n).procedureName? = none) ∧
    (∀ m p m' p', (procedure m p).joined = (procedure m' p').joined ↔ m = m' ∧ p = p') ∧
    (∀ n m p, (module n).joined ≠ (procedure m p).joined) ∧
    (∀ t, parse? t = some (module t) ↔ IsName t) ∧
    (∀ t m p, parse? t = some (procedure m p) ↔ t = m ++ "." ++ p ∧ IsName m ∧ p ≠ "") ∧
    (∀ t, parse? t = none ↔ ¬ IsName t ∧ ¬ ∃ m p, t = m ++ "." ++ p ∧ IsName m ∧ p ≠ "") ∧
    (∀ t s, parse? t = some s ↔ s.text = t ∧ s.Readable) ∧
    ∀ s, parse? s.text = some s ↔ IsName s.moduleName ∧ s.procedureName? ≠ some "" := by
  refine ⟨fun m p => ⟨joins_procedure m p, rfl, rfl⟩, fun n => ⟨rfl, rfl, rfl⟩, fun m p m' p' => ?_,
    fun n m p h => ?_, fun t => parse?_eq_module_iff, fun t m p => parse?_eq_procedure_iff,
    fun t => parse?_eq_none_iff, fun t s => parse?_eq_some_iff, fun s => parse?_text_iff.trans readable_iff⟩
  · rw [joined_inj, procedure.injEq]
  · exact Scope.noConfusion (joined_inj.1 h)

end DeclTree.Scope
