import DeclTree.Scope
/-!
# A scope as one text

A scope can be kept as its text alone, together with the place of the dot that
joins the two names. The text by itself would not do, since names may hold
dots. With the place of the dot, counted in bytes, both names can be cut out of
the text again, and two scopes that are kept alike are one.
-/
namespace DeclTree

/-- A text, and the byte offset of the dot that ends its first name, if it has
two. -/
structure JoinedText where
  text : String
  separator : Option Nat
deriving DecidableEq

namespace JoinedText

/-- The text before the byte offset, which has to lie between two characters. -/
def before? (s : String) (offset : Nat) : Option String :=
  (s.pos? ⟨offset⟩).map fun p => (s.sliceTo p).copy

/-- The text from the byte offset on, which has to lie between two characters. -/
def from? (s : String) (offset : Nat) : Option String :=
  (s.pos? ⟨offset⟩).map fun p => (s.sliceFrom p).copy

/-- The first name, cut out of the text. There is none where the cut would
split a character or lie outside the text. -/
def moduleName? (t : JoinedText) : Option String :=
  match t.separator with
  | none => some t.text
  | some offset => before? t.text offset

/-- The second name, cut out of the text behind the dot, if there is to be one. -/
def procedureName? (t : JoinedText) : Option (Option String) :=
  match t.separator with
  | none => some none
  | some offset => (from? t.text (offset + 1)).map some

end JoinedText

namespace Scope

/-- The scope as one text. -/
def joined (s : Scope) : JoinedText where
  text := s.text
  separator :=
    match s with
    | .module _ => none
    | .procedure m _ => some m.utf8ByteSize

/-- A dot is one byte long. -/
theorem utf8ByteSize_append_dot (s : String) : (s ++ ".").utf8ByteSize = s.utf8ByteSize + 1 :=
  String.utf8ByteSize_append

/-- The end of a text lies between two characters of any longer text. -/
theorem isValid_append (s t : String) : (⟨s.utf8ByteSize⟩ : String.Pos.Raw).IsValid (s ++ t) :=
  String.Pos.Raw.isValid_rawEndPos.append_right t

/-- The end of a text is a place to cut any longer text at. -/
theorem pos?_append (s t : String) :
    ∃ p : (s ++ t).Pos, (s ++ t).pos? ⟨s.utf8ByteSize⟩ = some p ∧ p.Splits s t := by
  have hv := isValid_append s t
  refine ⟨(s ++ t).pos _ hv, ?_, String.Pos.splits_append_rawEndPos⟩
  simp [String.pos?, String.Slice.pos?, String.pos, hv]

theorem before?_append (s t : String) : JoinedText.before? (s ++ t) s.utf8ByteSize = some s := by
  obtain ⟨p, hp, hs⟩ := pos?_append s t
  rw [JoinedText.before?, hp, Option.map_some, hs.copy_sliceTo_eq]

theorem from?_append (s t : String) : JoinedText.from? (s ++ t) s.utf8ByteSize = some t := by
  obtain ⟨p, hp, hs⟩ := pos?_append s t
  rw [JoinedText.from?, hp, Option.map_some, hs.copy_sliceFrom_eq]

@[simp] theorem moduleName?_joined (s : Scope) : s.joined.moduleName? = some s.moduleName := by
  cases s with
  | module m => rfl
  | procedure m p =>
    have h := before?_append m ("." ++ p)
    rwa [← String.append_assoc] at h

@[simp] theorem procedureName?_joined (s : Scope) : s.joined.procedureName? = some s.procedureName? := by
  cases s with
  | module m => rfl
  | procedure m p =>
    -- The second name starts one byte behind the first.
    have h := from?_append (m ++ ".") p
    rw [utf8ByteSize_append_dot] at h
    exact congrArg (Option.map some) h

/-- Two scopes are one as soon as their texts and the places of their dots are. -/
theorem joined_inj {s t : Scope} : s.joined = t.joined ↔ s = t := by
  constructor
  · intro h
    have hm := congrArg JoinedText.moduleName? h
    have hp := congrArg JoinedText.procedureName? h
    simp only [moduleName?_joined, procedureName?_joined, Option.some.injEq] at hm hp
    exact Scope.ext_iff.2 ⟨hm, hp⟩
  · exact congrArg joined

end Scope

end DeclTree
