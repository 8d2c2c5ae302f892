import Pathname.Text

/-!
# Separators

A path is cut into segments by slashes and backslashes. Both are read as separators everywhere;
which of them is *written* is a choice of the caller.

## Contents

- `Separator` with its character and its opposite.
- `isSeparator`: the characters that separate.
- `Separator.unify`: a text with one separator in place of both.
- `lastSeparator?`: where the last segment of a text begins.
-/

namespace Pathname

/-- The two characters that separate the segments of a path. -/
inductive Separator where
  /-- The character `/`. -/
  | slash
  /-- The character `\`. -/
  | backslash
  deriving DecidableEq, Repr

namespace Separator

/-- The character of a separator. -/
def char : Separator → Char
  | slash => '/'
  | backslash => '\\'

/-- The opposite separator. -/
def flip : Separator → Separator
  | slash => backslash
  | backslash => slash

/-- The slash or the backslash, as asked for. -/
def ofIsSlash (isSlash : Bool) : Separator := if isSlash then slash else backslash

/-- The separator that a text consists of. -/
def ofText? : Text → Option Separator
  | ['/'] => some slash
  | ['\\'] => some backslash
  | _ => none

/-- Flipping twice changes nothing. -/
@[simp] theorem flip_flip (s : Separator) : s.flip.flip = s := by cases s <;> rfl

/-- Reading the text of a separator gives the separator. -/
@[simp] theorem ofText?_char (s : Separator) : ofText? [s.char] = some s := by cases s <;> rfl

theorem char_injective : Function.Injective char := by
  intro s₁ s₂ h
  have htext : ofText? [s₁.char] = ofText? [s₂.char] := by rw [h]
  simpa using htext

end Separator

/-! ## Separators in a text -/

/-- Whether a character is a separator. -/
def isSeparator (c : Char) : Bool := c == '/' || c == '\\'

/-- The character of every separator separates. -/
@[simp] theorem isSeparator_char (s : Separator) : isSeparator s.char = true := by
  cases s <;> rfl

/-- Every character that separates is one of the two separators. -/
theorem exists_char_of_isSeparator {c : Char} (h : isSeparator c = true) :
    ∃ s : Separator, c = s.char := by
  simp only [isSeparator, Bool.or_eq_true, beq_iff_eq] at h
  rcases h with rfl | rfl
  · exact ⟨.slash, rfl⟩
  · exact ⟨.backslash, rfl⟩

/-- A text with the given separator in place of every separator. -/
def Separator.unify (s : Separator) (t : Text) : Text :=
  t.map fun c => if isSeparator c then s.char else c

/-- The position of the last separator of a text. -/
def lastSeparator? (t : Text) : Option Nat := Text.lastIndex? isSeparator t

/-- The position at which the last segment of a text begins. -/
def lastSegmentStart (t : Text) : Nat :=
  match lastSeparator? t with
  | some i => i + 1
  | none => 0

/-- Unifying the separators keeps the length of a text. -/
@[simp] theorem Separator.length_unify (s : Separator) (t : Text) :
    (s.unify t).length = t.length := by
  simp [Separator.unify]

end Pathname
