import DeclTree.Text.Caseless
import Mathlib.Data.List.Forall2
/-!
# Letter case

Two texts are equal up to letter case exactly if they are so character by
character: at each place they have the same character, or one has a capital A to
Z and the other the small letter of it. A character outside ASCII matches
nothing but itself.
-/
namespace DeclTree.Text

/-- The first character is a capital A to Z, and the second its small letter. -/
def IsCapitalOf (c d : Char) : Prop := 'A' ≤ c ∧ c ≤ 'Z' ∧ d.toNat = c.toNat + 32

/-- The characters differ at most in the case of a letter A to Z. -/
def SameLetter (c d : Char) : Prop := c = d ∨ IsCapitalOf c d ∨ IsCapitalOf d c

/-- The texts have the same letters, place by place. -/
def SameLetters (a b : String) : Prop := List.Forall₂ SameLetter a.toList b.toList

/-! ## Characters -/

theorem isCapitalOf_iff {c d : Char} : IsCapitalOf c d ↔ 65 ≤ c.toNat ∧ c.toNat ≤ 90 ∧ d.toNat = c.toNat + 32 :=
  Iff.rfl

theorem toNat_toLower (c : Char) :
    c.toLower.toNat = if 65 ≤ c.toNat ∧ c.toNat ≤ 90 then c.toNat + 32 else c.toNat := by
  have hcapital : (c.val ≥ 'A'.val ∧ c.val ≤ 'Z'.val) ↔ 65 ≤ c.toNat ∧ c.toNat ≤ 90 := Iff.rfl
  unfold Char.toLower
  split
  · rename_i h
    rw [if_pos (hcapital.1 h)]
    have hle : c.toNat ≤ 90 := (hcapital.1 h).2
    have hsum : (c.val + ('a'.val - 'A'.val)).toNat = (c.val.toNat + 32) % 2 ^ 32 := UInt32.toNat_add _ _
    have hlt : c.val.toNat + 32 < 2 ^ 32 := by
      have : c.val.toNat = c.toNat := rfl
      omega
    exact hsum.trans (Nat.mod_eq_of_lt hlt)
  · rename_i h
    rw [if_neg (mt hcapital.2 h)]

theorem toLower_eq_iff {c d : Char} : c.toLower = d.toLower ↔ SameLetter c d := by
  rw [SameLetter, isCapitalOf_iff, isCapitalOf_iff, ← Char.toNat_inj, ← Char.toNat_inj, toNat_toLower, toNat_toLower]
  split <;> split <;> omega

/-- A character outside ASCII is no other one's capital or small letter. -/
theorem SameLetter.eq_of_lt {c d : Char} (h : SameLetter c d) (ho : 127 < c.toNat ∨ 127 < d.toNat) : c = d := by
  rcases h with h | h | h
  · exact h
  · rw [isCapitalOf_iff] at h
    omega
  · rw [isCapitalOf_iff] at h
    omega

theorem isAlpha_iff {c : Char} : c.isAlpha ↔ 65 ≤ c.toNat ∧ c.toNat ≤ 90 ∨ 97 ≤ c.toNat ∧ c.toNat ≤ 122 := by
  have hcapital : c.isUpper ↔ 65 ≤ c.toNat ∧ c.toNat ≤ 90 := decide_eq_true_iff
  have hsmall : c.isLower ↔ 97 ≤ c.toNat ∧ c.toNat ≤ 122 :=
    Bool.and_eq_true_iff.trans (and_congr decide_eq_true_iff decide_eq_true_iff)
  exact Bool.or_eq_true_iff.trans (or_congr hcapital hsmall)

/-- Only letters A to Z match a letter A to Z. -/
theorem SameLetter.isAlpha {c d : Char} (h : SameLetter c d) (hc : c.isAlpha) : d.isAlpha := by
  rw [isAlpha_iff] at hc ⊢
  rcases h with rfl | h | h
  · exact hc
  · rw [isCapitalOf_iff] at h
    omega
  · rw [isCapitalOf_iff] at h
    omega

/-! ## Texts -/

theorem eqCaseless_iff_sameLetters {a b : String} : eqCaseless a b ↔ SameLetters a b := by
  rw [eqCaseless_iff, foldCase, foldCase, ← List.forall₂_eq_eq_eq, List.forall₂_map_left_iff,
    List.forall₂_map_right_iff]
  simp only [toLower_eq_iff]
  rfl

/-- The characters outside ASCII at their places, and nothing at all others. -/
def outsideAscii (s : String) : List (Option Char) :=
  s.toList.map fun c => if 127 < c.toNat then some c else none

/-- Texts that differ in a character outside ASCII do not have the same letters. -/
theorem SameLetters.outsideAscii_eq {a b : String} (h : SameLetters a b) : outsideAscii a = outsideAscii b := by
  rw [outsideAscii, outsideAscii, ← List.forall₂_eq_eq_eq, List.forall₂_map_left_iff, List.forall₂_map_right_iff]
  refine h.imp fun c d hcd => ?_
  by_cases ho : 127 < c.toNat ∨ 127 < d.toNat
  · rw [hcd.eq_of_lt ho]
  · obtain ⟨hc, hd⟩ := not_or.1 ho
    rw [if_neg hc, if_neg hd]

end DeclTree.Text
