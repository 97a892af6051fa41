import DeclTree.Proofs.LetterCase
import DeclTree.Proofs.Reading
import Mathlib.Data.List.TakeWhile
/-!
# The texts of visibility clauses

A visibility clause has to consist of one of the four keywords, with nothing but
white space before and behind it. Each letter may be small or a capital, and
nothing outside ASCII may stand for a letter. A keyword looked up by itself may
not even have white space around it.
-/
namespace DeclTree

/-! ## White space and letters -/

namespace Text
variable {u w v : List Char}

/-- All white space is taken away around a text that neither begins nor ends
with any. -/
theorem trimChars_append (hu : ∀ c ∈ u, isWhiteSpace c) (hv : ∀ c ∈ v, isWhiteSpace c)
    (hfirst : ∀ c ∈ w.head?, ¬ isWhiteSpace c) (hlast : ∀ c ∈ w.getLast?, ¬ isWhiteSpace c) :
    trimChars (u ++ w ++ v) = w := by
  by_cases hw : w = []
  · have huv : ∀ c ∈ u ++ v, isWhiteSpace c := List.forall_mem_append.2 ⟨hu, hv⟩
    rw [hw, List.append_nil, trimChars, List.dropWhile_eq_nil_iff.2 huv]
    rfl
  · have hfront : (w ++ v).dropWhile isWhiteSpace = w ++ v := by
      obtain ⟨c, w, rfl⟩ := List.exists_cons_of_ne_nil hw
      exact List.dropWhile_cons_of_neg (hfirst c rfl)
    have hback : w.reverse.dropWhile isWhiteSpace = w.reverse := by
      obtain ⟨w, c, rfl⟩ := w.eq_nil_or_concat'.resolve_left hw
      rw [List.reverse_concat]
      exact List.dropWhile_cons_of_neg (hlast c (by simp))
    have hbehind : ∀ c ∈ v.reverse, isWhiteSpace c := fun c hc => hv c (List.mem_reverse.1 hc)
    rw [trimChars, List.append_assoc, List.dropWhile_append_of_pos hu, hfront, List.reverse_append,
      List.dropWhile_append_of_pos hbehind, hback, List.reverse_reverse]

theorem not_isWhiteSpace_of_isAlpha {c : Char} (h : c.isAlpha) : ¬ isWhiteSpace c := by
  rw [isAlpha_iff] at h
  simp only [isWhiteSpace, whiteSpaceRanges, List.any_cons, List.any_nil, Bool.or_false, Bool.or_eq_true,
    Bool.and_eq_true, decide_eq_true_eq]
  omega

end Text

namespace Accessibility
variable {a b : Accessibility} {t : String} {clause : Source.Excerpt}

theorem isAlpha_keyword (a : Accessibility) : ∀ c ∈ a.keyword.toList, c.isAlpha := by
  have h : a.keyword.toList.all Char.isAlpha := by cases a <;> decide
  exact List.all_eq_true.1 h

/-- Whatever is spelled like a keyword is made of letters A to Z. -/
theorem isAlpha_of_sameLetters (h : Text.SameLetters a.keyword t) : ∀ c ∈ t.toList, c.isAlpha :=
  forall_of_forall₂ ((List.forall₂_and_left _ _).2 ⟨a.isAlpha_keyword, h⟩) fun _ _ hl => hl.2.isAlpha hl.1

/-! ## Keywords by themselves -/

theorem ofKeyword?_eq_some_iff : ofKeyword? t = some a ↔ Text.SameLetters a.keyword t :=
  ofKeyword?_eq_some.trans Text.eqCaseless_iff_sameLetters

/-- A word with anything in it but letters A to Z is no keyword. -/
theorem ofKeyword?_eq_none_of_mem {c : Char} (hc : c ∈ t.toList) (h : ¬ c.isAlpha) : ofKeyword? t = none := by
  refine Option.eq_none_iff_forall_ne_some.2 fun a ha => h ?_
  exact isAlpha_of_sameLetters (ofKeyword?_eq_some_iff.1 ha) c hc

/-! ## Keywords in clauses -/

/-- The text is the keyword, whatever the case of its letters, with nothing but
white space before and behind it. -/
def StandsAlone (a : Accessibility) (t : String) : Prop :=
  ∃ u w v : String, t = u ++ w ++ v ∧ Text.SameLetters a.keyword w ∧
    (∀ c ∈ u.toList, Text.isWhiteSpace c) ∧ ∀ c ∈ v.toList, Text.isWhiteSpace c

theorem standsAlone_iff : a.StandsAlone t ↔ Text.SameLetters a.keyword (Text.trim t) := by
  constructor
  · rintro ⟨u, w, v, rfl, hw, hu, hv⟩
    have hletter : ∀ c ∈ w.toList, ¬ Text.isWhiteSpace c := fun c hc =>
      Text.not_isWhiteSpace_of_isAlpha (isAlpha_of_sameLetters hw c hc)
    have htrim : Text.trim (u ++ w ++ v) = w := by
      rw [← String.toList_inj, Text.toList_trim, String.toList_append, String.toList_append]
      exact Text.trimChars_append hu hv (fun c hc => hletter c (List.mem_of_mem_head? hc))
        fun c hc => hletter c (List.mem_of_mem_getLast? hc)
    rwa [htrim]
  · intro h
    obtain ⟨u, v, hu, hv, ht⟩ := Text.exists_append_trimChars t.toList
    refine ⟨String.ofList u, Text.trim t, String.ofList v, ?_, h, ?_, ?_⟩
    · rw [← String.toList_inj]
      simpa using ht
    · simpa using hu
    · simpa using hv

theorem StandsAlone.unique (ha : a.StandsAlone t) (hb : b.StandsAlone t) : a = b := by
  rw [standsAlone_iff, ← ofKeyword?_eq_some_iff] at ha hb
  exact Option.some.inj (ha.symm.trans hb)

/-- Around a keyword that stands alone there is white space only. -/
theorem StandsAlone.isAlpha (h : a.StandsAlone t) {c : Char} (hc : c ∈ t.toList) (hs : ¬ Text.isWhiteSpace c) :
    c.isAlpha := by
  obtain ⟨u, w, v, rfl, hw, hu, hv⟩ := h
  rw [String.toList_append, String.toList_append, List.mem_append, List.mem_append] at hc
  rcases hc with (hc | hc) | hc
  · exact absurd (hu c hc) hs
  · exact isAlpha_of_sameLetters hw c hc
  · exact absurd (hv c hc) hs

theorem ofClause_eq_ok_iff : ofClause clause = .ok a ↔ a.StandsAlone clause.text := by
  rw [ofClause_eq_ok, standsAlone_iff, Text.eqCaseless_iff_sameLetters]

/-- Any other clause is at fault, and quoted with its white space. -/
theorem ofClause_eq_error_iff :
    ofClause clause = .error (.unknownVisibility clause.text clause.span) ↔
      ¬ ∃ a : Accessibility, a.StandsAlone clause.text := by
  simp only [← ofClause_eq_ok_iff, ofClause]
  cases ofKeyword? (Text.trim clause.text) <;> simp

/-! ## Main theorem -/

/-- The clause of a symbol that is not local gives it the one accessibility whose
keyword stands alone in the text, whatever the default, and a clause with any
other text is at fault and quoted as it is. A word by itself has to be the keyword, letter case
aside, so there is no white space in it. No character outside ASCII is a letter
of a keyword in another case: a word has none, and a clause only as white space. -/
theorem keywords_stand_alone (t : String) (s : Span) (d : Accessibility) :
    (∀ a, resolve false (some ⟨s, t⟩) d = .ok a ↔ a.StandsAlone t) ∧
    (resolve false (some ⟨s, t⟩) d = .error (.unknownVisibility t s) ↔ ¬ ∃ a : Accessibility, a.StandsAlone t) ∧
    (∀ a b : Accessibility, a.StandsAlone t → b.StandsAlone t → a = b) ∧
    (∀ d', resolve false (some ⟨s, t⟩) d' = resolve false (some ⟨s, t⟩) d) ∧
    (∀ a, ofKeyword? t = some a ↔ Text.SameLetters a.keyword t) ∧
    (∀ c ∈ t.toList, Text.isWhiteSpace c → ofKeyword? t = none) ∧
    (∀ c ∈ t.toList, 127 < c.toNat → ofKeyword? t = none ∧
      (¬ Text.isWhiteSpace c → resolve false (some ⟨s, t⟩) d = .error (.unknownVisibility t s))) ∧
    ∀ a : Accessibility, ∀ l ∈ a.keyword.toList, ∀ c, 127 < c.toNat → ¬ Text.SameLetter l c := by
  have houtside : ∀ c : Char, 127 < c.toNat → ¬ c.isAlpha := by
    intro c hc h
    rw [Text.isAlpha_iff] at h
    omega
  refine ⟨fun a => ?_, ?_, fun a b ha hb => ha.unique hb, fun d' => ?_, fun a => ofKeyword?_eq_some_iff,
    fun c hc hs => ?_, fun c hc ho => ⟨ofKeyword?_eq_none_of_mem hc (houtside c ho), fun hs => ?_⟩, ?_⟩
  · rw [resolve_some, ofClause_eq_ok_iff]
  · rw [resolve_some]
    exact ofClause_eq_error_iff
  · rw [resolve_some, resolve_some]
  · exact ofKeyword?_eq_none_of_mem hc fun h => Text.not_isWhiteSpace_of_isAlpha h hs
  · rw [resolve_some]
    refine ofClause_eq_error_iff.2 ?_
    rintro ⟨a, ha⟩
    exact houtside c ho (ha.isAlpha hc hs)
  · intro a l hl c ho h
    exact houtside c ho (h.isAlpha (a.isAlpha_keyword l hl))

/-- Outside ASCII there may be white space around a keyword, but the letter i
without its dot is no letter of one. -/
theorem keywords_stand_alone_of_padded :
    resolve false (some ⟨⟨0, 9⟩, "\u2003pUBLIC\u00a0\t"⟩) .friend = .ok .pub ∧
    (∀ b : Accessibility, b.StandsAlone "\u2003pUBLIC\u00a0\t" → b = .pub) ∧
    ofKeyword? "\u2003pUBLIC\u00a0\t" = none ∧
    ofKeyword? "Prıvate" = none ∧
    resolve false (some ⟨⟨0, 8⟩, "Prıvate"⟩) .pub = .error (.unknownVisibility "Prıvate" ⟨0, 8⟩) ∧
    ¬ Text.SameLetter 'i' 'ı' := by
  have hletters : Text.SameLetters pub.keyword "pUBLIC" := Text.eqCaseless_iff_sameLetters.1 (by decide)
  have halone : pub.StandsAlone "\u2003pUBLIC\u00a0\t" := by
    refine ⟨"\u2003", "pUBLIC", "\u00a0\t", by decide, hletters, ?_, ?_⟩
    · exact List.all_eq_true.1 (by decide)
    · exact List.all_eq_true.1 (by decide)
  obtain ⟨hok, -, hunique, -, -, hblank, -⟩ := keywords_stand_alone "\u2003pUBLIC\u00a0\t" ⟨0, 9⟩ .friend
  obtain ⟨-, -, -, -, -, -, houtside, hfold⟩ := keywords_stand_alone "Prıvate" ⟨0, 8⟩ .pub
  obtain ⟨hnone, herror⟩ := houtside 'ı' (by decide) (by decide)
  refine ⟨(hok .pub).2 halone, fun b hb => hunique b .pub hb halone, ?_, hnone, herror (by decide), ?_⟩
  · exact hblank '\t' (by decide) (by decide)
  · exact hfold .priv 'i' (by decide) 'ı' (by decide)

end Accessibility

end DeclTree
