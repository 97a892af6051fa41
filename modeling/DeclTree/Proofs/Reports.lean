import DeclTree.Project
import DeclTree.Text.Mark
/-!
# What a report gives away

A message quotes text of the source as it stands, whatever marks that text
holds. All the same it gives its fault away. The place behind a quotation is
written in digits and dots, so the last backtick of the message is the one that
ends the quotation. The first line of a report shows the code in addition, and
the report of a module that was set aside ends with a note that names it.
-/
namespace DeclTree

/-! ## Places -/

theorem not_mem_toDigits {c : Char} (hc : c.isDigit = false) (n : Nat) : c ∉ Nat.toDigits 10 n := by
  intro h
  have hd : c.isDigit = true := Nat.isDigit_of_mem_toDigits (by decide) (by decide) h
  rw [hc] at hd
  cases hd

theorem toDigits_injective {m n : Nat} (h : Nat.toDigits 10 m = Nat.toDigits 10 n) : m = n := by
  have hread := congrArg (fun digits => Nat.ofDigitChars 10 digits 0) h
  simpa only [Nat.ofDigitChars_ten_toDigits] using hread

namespace Span

theorem toList_text (s : Span) :
    s.text.toList = Nat.toDigits 10 s.start.toNat ++ '.' :: '.' :: Nat.toDigits 10 s.stop.toNat := by
  simp [text]

/-- A place is written in digits and dots. -/
theorem not_mem_text {c : Char} (hc : c.isDigit = false) (hdot : c ≠ '.') (s : Span) : c ∉ s.text.toList := by
  simp [toList_text, not_mem_toDigits hc, hdot]

theorem text_injective {s t : Span} (h : s.text = t.text) : s = t := by
  have hl := congrArg String.toList h
  rw [toList_text, toList_text] at hl
  have hdot : ∀ n : Nat, '.' ∉ Nat.toDigits 10 n := not_mem_toDigits rfl
  obtain ⟨hstart, hstop⟩ := Text.eq_of_first_mark (hdot _) (hdot _) hl
  have hstart := UInt32.toNat_inj.1 (toDigits_injective hstart)
  have hstop := UInt32.toNat_inj.1 (toDigits_injective (List.cons.inj hstop).2)
  cases s
  cases t
  cases hstart
  cases hstop
  rfl

end Span

/-! ## First lines -/

/-- The code and the message can be told from the first line of a report. -/
theorem Diagnostic.text_eq_iff {d e : Diagnostic} : d.text = e.text ↔ d.code = e.code ∧ d.message = e.message := by
  have hmark : ∀ code : ErrorCode, ']' ∉ code.text.toList := fun code => by cases code <;> decide
  constructor
  · intro h
    simp only [text, String.append_assoc, String.append_right_inj] at h
    have hl : d.code.text.toList ++ ']' :: (": " ++ d.message).toList =
        e.code.text.toList ++ ']' :: (": " ++ e.message).toList := by
      simpa using congrArg String.toList h
    obtain ⟨hcode, hmessage⟩ := Text.eq_of_first_mark (hmark _) (hmark _) hl
    rw [String.toList_inj, String.append_right_inj] at hmessage
    exact ⟨ErrorCode.text_injective (String.toList_inj.1 hcode), hmessage⟩
  · rintro ⟨hcode, hmessage⟩
    rw [text, text, hcode, hmessage]

namespace Fault
variable {a b : Fault}

/-! ## Messages -/

/-- How a message about a fault of this code begins. -/
def opening : ErrorCode → String
  | .missingPart => "declaration fragment at "
  | .unknownHint => "unknown type hint `"
  | .unknownVisibility => "unknown visibility keyword `"

/-- What the message goes on with: the fault's own data. -/
def details : Fault → String
  | .missing part s => s.text ++ (" is missing its " ++ part.text)
  | .unknownHint word s | .unknownVisibility word s => word ++ ("` at " ++ s.text)

theorem message_eq (f : Fault) : f.message = opening f.code ++ f.details := by
  cases f <;> dsimp only [message, opening, details, code] <;> rw [String.append_assoc, String.append_assoc]

/-- No opening is the beginning of another one. -/
theorem eq_of_opening_begins {c d : ErrorCode} (h : (opening c).toList <+: (opening d).toList) : c = d := by
  cases c <;> cases d <;> simp [opening] at h ⊢

theorem code_eq_of_message (h : a.message = b.message) : a.code = b.code := by
  rw [message_eq, message_eq] at h
  have hl := congrArg String.toList h
  rw [String.toList_append, String.toList_append] at hl
  rcases List.prefix_or_prefix_of_prefix (hl ▸ List.prefix_append _ _) (List.prefix_append _ _) with hp | hp
  · exact eq_of_opening_begins hp
  · exact (eq_of_opening_begins hp).symm

/-- The word before a place, and the place, can be told apart. -/
theorem quotation_injective {v w : String} {s t : Span} (h : v ++ ("` at " ++ s.text) = w ++ ("` at " ++ t.text)) :
    v = w ∧ s = t := by
  -- The words may hold backticks, but what follows the quotation holds none.
  have hmark : ∀ s : Span, '`' ∉ (" at " ++ s.text).toList := fun s => by
    simp [Span.not_mem_text]
  have hl : v.toList ++ '`' :: (" at " ++ s.text).toList = w.toList ++ '`' :: (" at " ++ t.text).toList := by
    simpa using congrArg String.toList h
  obtain ⟨hword, hplace⟩ := Text.eq_of_last_mark (hmark _) (hmark _) hl
  rw [String.toList_inj, String.append_right_inj] at hplace
  exact ⟨String.toList_inj.1 hword, Span.text_injective hplace⟩

theorem missing_injective {p q : Part} {s t : Span}
    (h : s.text ++ (" is missing its " ++ p.text) = t.text ++ (" is missing its " ++ q.text)) : p = q ∧ s = t := by
  have hmark : ∀ s : Span, ' ' ∉ s.text.toList := Span.not_mem_text rfl (by decide)
  have hl : s.text.toList ++ ' ' :: ("is missing its " ++ p.text).toList =
      t.text.toList ++ ' ' :: ("is missing its " ++ q.text).toList := by
    simpa using congrArg String.toList h
  obtain ⟨hplace, hpart⟩ := Text.eq_of_first_mark (hmark _) (hmark _) hl
  rw [String.toList_inj, String.append_right_inj] at hpart
  exact ⟨Part.text_injective hpart, Span.text_injective (String.toList_inj.1 hplace)⟩

theorem details_injective (hc : a.code = b.code) (h : a.details = b.details) : a = b := by
  cases a with
  | missing p s =>
    cases b with
    | missing q t =>
      obtain ⟨rfl, rfl⟩ := missing_injective h
      rfl
    | _ => cases hc
  | unknownHint v s =>
    cases b with
    | unknownHint w t =>
      obtain ⟨rfl, rfl⟩ := quotation_injective h
      rfl
    | _ => cases hc
  | unknownVisibility v s =>
    cases b with
    | unknownVisibility w t =>
      obtain ⟨rfl, rfl⟩ := quotation_injective h
      rfl
    | _ => cases hc

theorem message_injective (h : a.message = b.message) : a = b := by
  have hc := code_eq_of_message h
  rw [message_eq, message_eq, hc, String.append_right_inj] at h
  exact details_injective hc h

/-- A hint may look like the end of a message. -/
example : (unknownHint "x` at 1..2" ⟨3, 4⟩).message = "unknown type hint `x` at 1..2` at 3..4" := by
  decide

end Fault

/-! ## Modules that were set aside -/

/-- The last note of the report names the module. -/
theorem Exclusion.getLast?_notes (e : Exclusion) :
    e.diagnostic.notes.getLast? =
      some ("declarations of module `" ++ e.module ++ "` were excluded from the analysis") := by
  simp [diagnostic, Diagnostic.addNote]

theorem Exclusion.diagnostic_injective {e f : Exclusion} (h : e.diagnostic = f.diagnostic) : e = f := by
  have hfault : e.fault = f.fault := Fault.message_injective (congrArg Diagnostic.message h)
  have hnote := e.getLast?_notes.symm.trans ((congrArg (fun d => d.notes.getLast?) h).trans f.getLast?_notes)
  rw [Option.some.injEq, String.append_left_inj, String.append_right_inj] at hnote
  cases e
  cases f
  cases hfault
  cases hnote
  rfl

/-! ## Main theorem -/

/-- Two faults with one message, or with one first line of their reports, are one
fault, whatever text they quote. Two modules that were set aside with one report
are one module with one fault. -/
theorem Fault.reports_give_away :
    (∀ a b : Fault, a.message = b.message ↔ a = b) ∧
    (∀ a b : Fault, a.diagnostic.text = b.diagnostic.text ↔ a = b) ∧
    ∀ e f : Exclusion, e.diagnostic = f.diagnostic ↔ e = f := by
  refine ⟨fun a b => ⟨message_injective, congrArg message⟩, fun a b => ?_,
    fun e f => ⟨Exclusion.diagnostic_injective, congrArg Exclusion.diagnostic⟩⟩
  constructor
  · intro h
    exact message_injective (Diagnostic.text_eq_iff.1 h).2
  · rintro rfl
    rfl

end DeclTree
