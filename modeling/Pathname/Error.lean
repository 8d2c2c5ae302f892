import Pathname.Quoted

/-!
# Errors

Two kinds of errors. A **path error** says what is wrong with a path and carries the text in
which it was found. A **misuse** is an argument that is not what it has to be. Their wording is
fixed here and nowhere else.

A path that climbs over its own root is well formed and has no normal form; that is an answer,
not an error.

## Contents

- `Fault`, `PathError`, `PathError.message`.
- `Misuse`, `Misuse.message`.
- `rejectNul`: the check for NUL characters.
-/

namespace Pathname

/-! ## Faults of a path -/

/-- What may be wrong with a path. -/
inductive Fault where
  /-- The beginning of the path is no root, and not the beginning of a relative path either. -/
  | unparseableRoot
  /-- The path holds a NUL character. -/
  | nulCharacter
  /-- A colon in the file name would open an alternate data stream. -/
  | streamMarker
  /-- Anything else, in the words of the reporter. -/
  | other (reason : Text)
  deriving DecidableEq, Repr

/-- The wording of a fault. -/
def Fault.reason : Fault → Text
  | unparseableRoot => "unparseable path prefix".toList
  | nulCharacter =>
    ("null character present in file/path name; there are no known legitimate use cases " ++
      "for such data, but several injection attacks may use it").toList
  | streamMarker => "NTFS ADS separator (\x27:\x27) in file name is forbidden".toList
  | other reason => reason

/-- A fault, and the text in which it was found. -/
structure PathError where
  /-- What is wrong. -/
  fault : Fault
  /-- The text in which it was found. -/
  path : Text
  deriving DecidableEq, Repr

/-- The message of a path error: the wording of the fault, a colon, and the quoted text. -/
def PathError.message (error : PathError) : Text :=
  error.fault.reason ++ ": ".toList ++ quote error.path

/-- Passes a text on unless it holds a NUL character. -/
def rejectNul (t : Text) : Except PathError Text :=
  if t.contains '\x00' then .error ⟨.nulCharacter, t⟩ else .ok t

/-- A text is passed on exactly when it holds no NUL character. -/
theorem rejectNul_eq_ok_iff {t u : Text} : rejectNul t = .ok u ↔ '\x00' ∉ t ∧ t = u := by
  unfold rejectNul
  split <;> simp_all

theorem rejectNul_of_mem {t : Text} (h : '\x00' ∈ t) :
    rejectNul t = .error ⟨.nulCharacter, t⟩ := by
  rw [rejectNul, if_pos (List.contains_iff_mem.mpr h)]

theorem rejectNul_of_not_mem {t : Text} (h : '\x00' ∉ t) : rejectNul t = .ok t :=
  rejectNul_eq_ok_iff.mpr ⟨h, rfl⟩

/-- A success that was mapped is the image of a success. -/
theorem exists_of_map_eq_ok {ε α β : Type} {e : Except ε α} {f : α → β} {b : β}
    (h : e.map f = .ok b) : ∃ a, e = .ok a ∧ f a = b := by
  cases e with
  | error e => contradiction
  | ok a => exact ⟨a, rfl, Except.ok.inj h⟩

/-! ## Misused arguments -/

/-- An argument that is not what it has to be. -/
inductive Misuse where
  /-- The text is neither separator. -/
  | notSeparator (text : Text)
  /-- The text names no case policy. -/
  | unknownCasePolicy (name : Text)
  deriving DecidableEq, Repr

/-- The message of a misuse. -/
def Misuse.message : Misuse → Text
  | notSeparator text => "not a name separator: ".toList ++ quote text
  | unknownCasePolicy name => "unknown case sensitivity: ".toList ++ quote name

end Pathname
