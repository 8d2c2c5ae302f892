import Pathname.Proofs.Containment
import Pathname.Proofs.EqualityInNormalForm

/-!
# Containment is a strict order

Containment reads its two paths as they stand, and puts a separator behind the directory that it takes
from the first character of the directory. For paths in normal form this is the containment of
components; for other paths it is still an order: whatever lies in a directory is longer than the
directory, and where case matters, what lies in a path lies in every directory that the path lies in.

- `length_lt_of_contains`: from which irreflexivity and asymmetry follow.
- `contains_exact_trans`: beginnings of beginnings.
- `contains_strict_order`: **the main statement**.
-/

namespace Pathname

variable {rule : CaseRule} {p c a b : Text}

/-! ## What lies in a directory is longer -/

/-- A directory that contains something has a name, which what is inside it begins with. -/
theorem contains_cases (h : contains rule (some p) (some c) = true) :
    p ≠ [] ∧ rule.equals p c = false ∧ rule.beginsWith c (inside p) = true := by
  cases p with
  | nil => simp [contains] at h
  | cons d more =>
    cases c with
    | nil => simp [contains] at h
    | cons e rest =>
      simp only [contains, Bool.and_eq_true, Bool.not_eq_true'] at h
      exact ⟨List.cons_ne_nil d more, h⟩

/-- **What lies in a directory is longer than the directory.** -/
theorem length_lt_of_contains (h : contains rule (some p) (some c) = true) :
    p.length < c.length := by
  obtain ⟨-, hdiffer, hbegins⟩ := contains_cases h
  have hinside : (inside p).length ≤ c.length := CaseRule.length_le_of_beginsWith hbegins
  have hle : p.length ≤ (inside p).length := (prefix_inside p).length_le
  apply Nat.lt_of_le_of_ne (Nat.le_trans hle hinside)
  intro hlength
  -- Of the same length, the directory ends in its separator already, and nothing follows it.
  have hself : p = inside p := (prefix_inside p).eq_of_length (by omega)
  rw [← hself] at hbegins
  have hequals : rule.equals c p = true := by simp [CaseRule.equals, hlength, hbegins]
  rw [CaseRule.equals_comm, hdiffer] at hequals
  contradiction

theorem not_contains_of_length_le (h : c.length ≤ p.length) :
    contains rule (some p) (some c) = false := by
  rw [← Bool.not_eq_true]
  intro hcontains
  exact absurd (length_lt_of_contains hcontains) (Nat.not_lt.mpr h)

theorem contains_self (rule : CaseRule) (p : Text) : contains rule (some p) (some p) = false :=
  not_contains_of_length_le (Nat.le_refl p.length)

theorem contains_asymm (h : contains rule (some p) (some c) = true) :
    contains rule (some c) (some p) = false :=
  not_contains_of_length_le (Nat.le_of_lt (length_lt_of_contains h))

/-! ## What lies in a path lies in its directories -/

/-- **Where case matters, containment is transitive.** The upper directory and its separator are the
beginning of the lower directory, so what is put behind the lower one makes no difference to them. -/
theorem contains_exact_trans (hab : contains .exact (some a) (some b) = true)
    (hbc : contains .exact (some b) (some c) = true) :
    contains .exact (some a) (some c) = true := by
  have ha : a ≠ [] := (contains_cases hab).1
  have hb : b ≠ [] := (contains_cases hbc).1
  have hlength : a.length < c.length :=
    Nat.lt_trans (length_lt_of_contains hab) (length_lt_of_contains hbc)
  apply (contains_exact_iff ha).mpr
  constructor
  · rintro rfl
    exact absurd hlength (Nat.lt_irrefl _)
  · have hupper : inside a <+: b := ((contains_exact_iff ha).mp hab).2
    have hlower : inside b <+: c := ((contains_exact_iff hb).mp hbc).2
    exact hupper.trans ((prefix_inside b).trans hlower)

/-- **Containment is a strict order on all texts**, in normal form or not. Under every case policy no
path lies in itself, and what lies in a directory is longer than the directory and does not contain
it. Where case matters, a path that lies in a second one lies in everything that the second one lies
in. -/
theorem contains_strict_order (style : Style) :
    (∀ (policy : CasePolicy) (p : Text),
      contains (policy.rule style) (some p) (some p) = false) ∧
    (∀ (policy : CasePolicy) (p c : Text), contains (policy.rule style) (some p) (some c) = true →
      p.length < c.length ∧ contains (policy.rule style) (some c) (some p) = false) ∧
    ∀ a b c : Text, contains (CasePolicy.sensitive.rule style) (some a) (some b) = true →
      contains (CasePolicy.sensitive.rule style) (some b) (some c) = true →
      contains (CasePolicy.sensitive.rule style) (some a) (some c) = true := by
  refine ⟨fun policy => contains_self _, fun policy p c h => ?_, fun a b c => ?_⟩
  · exact ⟨length_lt_of_contains h, contains_asymm h⟩
  · exact contains_exact_trans

/-- A root that is one character, a directory that is not in normal form, and a file in it. -/
theorem contains_strict_order_in_root :
    contains (CasePolicy.sensitive.rule .windows) (some "\\".toList) (some "\\a/.".toList) = true ∧
    contains (CasePolicy.sensitive.rule .windows) (some "\\a/.".toList)
      (some "\\a/.\\b".toList) = true ∧
    "\\".toList.length < "\\a/.".toList.length ∧
    contains (CasePolicy.sensitive.rule .windows) (some "\\a/.".toList) (some "\\".toList) = false ∧
    contains (CasePolicy.sensitive.rule .windows) (some "\\".toList)
      (some "\\a/.\\b".toList) = true := by
  have hroot : contains (CasePolicy.sensitive.rule .windows) (some "\\".toList)
      (some "\\a/.".toList) = true := by decide
  have hfile : contains (CasePolicy.sensitive.rule .windows) (some "\\a/.".toList)
      (some "\\a/.\\b".toList) = true := by decide
  obtain ⟨-, hlonger, htransitive⟩ := contains_strict_order .windows
  obtain ⟨hlength, hback⟩ := hlonger .sensitive _ _ hroot
  exact ⟨hroot, hfile, hlength, hback, htransitive _ _ _ hroot hfile⟩

/-- Where case does not matter, the three thetas break the chain, as they do for equality. -/
example : contains .ignoring (some "\u03f4".toList) (some "\u03b8\\a".toList) = true ∧
    contains .ignoring (some "\u03b8\\a".toList) (some "\u03d1\\a\\b".toList) = true ∧
    contains .ignoring (some "\u03f4".toList) (some "\u03d1\\a\\b".toList) = false := by
  decide +kernel

end Pathname
