import Pathname.Text
import Pathname.Unicode.Lowercase
import Pathname.Unicode.Uppercase

/-!
# Case rules

Two ways to compare texts character by character: characters agree when they are equal, or when
they are equal or have the same upper case or the same lower case. Agreement without regard to
case is not case folding: it is decided for each pair of characters by itself, so texts of
different lengths never agree, and it is not transitive.

## Contents

- `CaseRule`, `CaseRule.agrees`: one character with one character.
- `CaseRule.beginsWith`: a text begins with a token.
- `CaseRule.equals`, `CaseRule.endsWith`, `CaseRule.occursAt`: whole texts, ends, given positions.
- `CaseRule.seek`, `CaseRule.indexOf?`: the first occurrence of a token.
-/

namespace Pathname

/-- How two characters are compared. -/
inductive CaseRule where
  /-- Only equal characters agree. -/
  | exact
  /-- Characters with the same upper case or the same lower case agree too. -/
  | ignoring
  deriving DecidableEq, Repr

namespace CaseRule

/-! ## Characters -/

/-- Whether two characters agree under a rule. -/
def agrees : CaseRule → Char → Char → Bool
  | exact, a, b => a == b
  | ignoring, a, b =>
    a == b || Unicode.upper a == Unicode.upper b || Unicode.lower a == Unicode.lower b

@[simp] theorem agrees_self (rule : CaseRule) (c : Char) : rule.agrees c c = true := by
  cases rule <;> simp [agrees]

theorem agrees_comm (rule : CaseRule) (a b : Char) : rule.agrees a b = rule.agrees b a := by
  cases rule <;> simp only [agrees, Bool.beq_comm]

/-! ## Beginnings, ends and whole texts -/

/-- Whether a text begins with a token. -/
def beginsWith (rule : CaseRule) : (text token : Text) → Bool
  | _, [] => true
  | [], _ :: _ => false
  | c :: text, d :: token => rule.agrees c d && beginsWith rule text token

/-- Whether a token occurs in a text at a position, which may lie outside the text. -/
def occursAt (rule : CaseRule) (text : Text) (start : Int) (token : Text) : Bool :=
  decide (0 ≤ start) && decide (start + token.length ≤ text.length) &&
    rule.beginsWith (text.drop start.toNat) token

/-- Whether two texts have the same length and agree at every position. -/
def equals (rule : CaseRule) (a b : Text) : Bool :=
  a.length == b.length && rule.beginsWith a b

/-- Whether a text ends with a token. -/
def endsWith (rule : CaseRule) (text token : Text) : Bool :=
  rule.occursAt text (text.length - token.length) token

@[simp] theorem beginsWith_self (rule : CaseRule) (text : Text) :
    rule.beginsWith text text = true := by
  induction text with
  | nil => rfl
  | cons c rest ih => simp [beginsWith, ih]

@[simp] theorem equals_self (rule : CaseRule) (text : Text) : rule.equals text text = true := by
  simp [equals]

theorem length_le_of_beginsWith {rule : CaseRule} {text token : Text}
    (h : rule.beginsWith text token = true) : token.length ≤ text.length := by
  fun_induction beginsWith rule text token with
  | case1 => simp
  | case2 => simp at h
  | case3 c text d token ih =>
    simp only [Bool.and_eq_true] at h
    simpa using ih h.2

/-- A text that begins with a token equals it in the characters that the token covers. -/
theorem equals_take_of_beginsWith {rule : CaseRule} {text token : Text}
    (h : rule.beginsWith text token = true) :
    rule.equals (text.take token.length) token = true := by
  have hlength := length_le_of_beginsWith h
  simp only [equals, Bool.and_eq_true, beq_iff_eq, List.length_take]
  refine ⟨by omega, ?_⟩
  clear hlength
  fun_induction beginsWith rule text token with
  | case1 => simp
  | case2 => simp at h
  | case3 c text d token ih =>
    simp only [Bool.and_eq_true] at h
    simp [beginsWith, h.1, ih h.2]

/-! ## Searching -/

/-- What is left of a text from the first occurrence of a token on. -/
def seek (rule : CaseRule) (token : Text) : Text → Option Text
  | [] => if token.isEmpty then some [] else none
  | c :: rest =>
    if rule.beginsWith (c :: rest) token then some (c :: rest) else seek rule token rest

/-- The least position at or after `start` at which a token occurs; a negative `start` stands
for the beginning of the text. -/
def indexOf? (rule : CaseRule) (text : Text) (start : Int) (token : Text) : Option Nat :=
  if text.length < start.toNat then none
  else (rule.seek token (text.drop start.toNat)).map fun rest => text.length - rest.length

theorem beginsWith_of_seek {rule : CaseRule} {token text found : Text}
    (h : rule.seek token text = some found) : rule.beginsWith found token = true := by
  induction text with
  | nil =>
    unfold seek at h
    split at h
    · rename_i hempty
      obtain rfl : token = [] := by simpa using hempty
      simp [beginsWith]
    · simp at h
  | cons c rest ih =>
    unfold seek at h
    split at h
    · rename_i hbegins
      exact (Option.some.inj h) ▸ hbegins
    · exact ih h

theorem suffix_of_seek {rule : CaseRule} {token text found : Text}
    (h : rule.seek token text = some found) : found <:+ text := by
  induction text with
  | nil =>
    unfold seek at h
    split at h
    · exact (Option.some.inj h) ▸ List.suffix_refl []
    · simp at h
  | cons c rest ih =>
    unfold seek at h
    split at h
    · exact (Option.some.inj h) ▸ List.suffix_refl _
    · exact (ih h).trans (List.suffix_cons c rest)

end CaseRule

end Pathname
