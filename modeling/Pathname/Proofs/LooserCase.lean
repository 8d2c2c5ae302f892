import Pathname.Proofs.Containment
import Pathname.Proofs.GlobEffective

/-!
# Without regard to case nothing is lost

What is accepted where case matters is accepted under every case policy. For the matcher this
takes an argument: without regard to case it finds other occurrences, tries other places and saves
others. What it accepts in the end is told by the language of the pattern alone, and that only
grows. For containment the policy stands under a negation as well: a path may not be equal to the
directory. But it is longer than the directory already where case matters.

- `Describes.of_exact`: a pattern describes no fewer texts.
- `contains_of_exact`: a directory contains no fewer paths.
- `pathsEqual_cases`: what an answer about equality owes to the policy, and what it does not.
- `accepted_of_sensitive`: **the main statement**.
-/

namespace Pathname

/-! ## Texts -/

namespace CaseRule

variable {text token : Text}

theorem equals_of_exact (h : exact.equals text token = true) (rule : CaseRule) :
    rule.equals text token = true := by
  obtain rfl := exact_equals_iff.mp h
  exact rule.equals_self text

end CaseRule

/-! ## Patterns -/

namespace Glob

theorem Describes.of_exact {tokens : List Token} {text : Text} (h : Describes .exact tokens text)
    (rule : CaseRule) : Describes rule tokens text := by
  induction h with
  | nil => exact .nil
  | one c _ ih => exact .one c ih
  | many run _ ih => exact .many run ih
  | literal hequals _ ih => exact .literal (CaseRule.equals_of_exact hequals rule) ih

theorem isMatch_of_exact {text pattern : Text} (h : isMatch .exact text pattern = true)
    (rule : CaseRule) : isMatch rule text pattern = true :=
  isMatch_iff_describes.mpr ((isMatch_iff_describes.mp h).of_exact rule)

theorem wildcardMatch_of_exact {name pattern : Option Text}
    (h : wildcardMatch .exact name pattern = true) (rule : CaseRule) :
    wildcardMatch rule name pattern = true := by
  cases name with
  | none => cases pattern <;> exact h
  | some name =>
    cases pattern with
    | none => exact h
    | some pattern => exact isMatch_of_exact h rule

end Glob

/-! ## Containment -/

/-- A path in a directory is longer than the directory, so no policy takes them for equal. -/
theorem contains_of_exact {parent child : Option Text} (h : contains .exact parent child = true)
    (rule : CaseRule) : contains rule parent child = true := by
  cases parent with
  | none => exact absurd h (by simp [contains])
  | some directory =>
    cases child with
    | none => cases directory <;> exact absurd h (by simp [contains])
    | some t =>
      by_cases hdirectory : directory = []
      · subst hdirectory
        exact absurd h (by simp [contains])
      · obtain ⟨hne, hinside⟩ := (contains_exact_iff hdirectory).mp h
        obtain ⟨more, rfl⟩ := (prefix_inside directory).trans hinside
        have hmore : more ≠ [] := by
          rintro rfl
          exact hne (List.append_nil directory).symm
        exact contains_of_append rule hdirectory hmore hinside

/-! ## Equality -/

section Equality

variable {style : Style} {policy : CasePolicy} {a b x : Text}

theorem pathsEqual_of_error {e : PathError} (ha : comparable style a = .error e) :
    pathsEqual style true policy (some a) (some b) = .error e := by
  rw [pathsEqual, if_pos rfl, ha]
  rfl

theorem pathsEqual_of_no_normalForm (ha : comparable style a = .ok none) :
    pathsEqual style true policy (some a) (some b) = .ok false := by
  rw [pathsEqual, if_pos rfl, ha]
  rfl

/-- Behind a first path with a normal form the second one decides. -/
theorem pathsEqual_of_normalForm (ha : comparable style a = .ok (some x)) :
    pathsEqual style true policy (some a) (some b) =
      (comparable style b).map fun second =>
        (second.map fun y => (policy.rule style).equals x y).getD false := by
  rw [pathsEqual, if_pos rfl, ha]
  show (comparable style b >>= fun second => _) = _
  rcases comparable style b with e | _ | y <;> rfl

end Equality

/-- **What equality owes to the policy.** An error is found without the policy, and so is it that
some path is absent or has no normal form. Else there are two texts, and the policy decides whether
they are equal. -/
theorem pathsEqual_cases (style : Style) (inNormalForm : Bool) (a b : Option Text) :
    (∃ e, ∀ policy, pathsEqual style inNormalForm policy a b = .error e) ∨
    (∃ verdict, ∀ policy, pathsEqual style inNormalForm policy a b = .ok verdict) ∨
    ∃ x y, ∀ policy : CasePolicy,
      pathsEqual style inNormalForm policy a b = .ok ((policy.rule style).equals x y) := by
  rcases a with _ | a
  · cases b <;> exact Or.inr (Or.inl ⟨_, fun _ => rfl⟩)
  rcases b with _ | b
  · exact Or.inr (Or.inl ⟨false, fun _ => rfl⟩)
  cases inNormalForm with
  | false => exact Or.inr (Or.inr ⟨a, b, fun _ => rfl⟩)
  | true =>
    rcases ha : comparable style a with e | _ | x
    · exact Or.inl ⟨e, fun _ => pathsEqual_of_error ha⟩
    · exact Or.inr (Or.inl ⟨false, fun _ => pathsEqual_of_no_normalForm ha⟩)
    -- The first path has a normal form, so the second one is looked at.
    have hequal (policy : CasePolicy) : pathsEqual style true policy (some a) (some b) =
        (comparable style b).map fun second =>
          (second.map fun y => (policy.rule style).equals x y).getD false :=
      pathsEqual_of_normalForm ha
    rcases hb : comparable style b with e | _ | y
    · exact Or.inl ⟨e, fun policy => by rw [hequal, hb]; rfl⟩
    · exact Or.inr (Or.inl ⟨false, fun policy => by rw [hequal, hb]; rfl⟩)
    · exact Or.inr (Or.inr ⟨x, y, fun policy => by rw [hequal, hb]; rfl⟩)

theorem pathsEqual_of_sensitive {style : Style} {inNormalForm : Bool} {a b : Option Text}
    (h : pathsEqual style inNormalForm .sensitive a b = .ok true) (policy : CasePolicy) :
    pathsEqual style inNormalForm policy a b = .ok true := by
  obtain ⟨e, hequal⟩ | ⟨verdict, hequal⟩ | ⟨x, y, hequal⟩ :=
    pathsEqual_cases style inNormalForm a b
  · rw [hequal] at h
    contradiction
  · rw [hequal] at h ⊢
    exact h
  · rw [hequal, Except.ok.injEq] at h ⊢
    exact CaseRule.equals_of_exact h (policy.rule style)

theorem pathsEqual_eq_error_iff {style : Style} {inNormalForm : Bool} {a b : Option Text}
    {e : PathError} (policy other : CasePolicy) :
    pathsEqual style inNormalForm policy a b = .error e ↔
      pathsEqual style inNormalForm other a b = .error e := by
  obtain ⟨e, hequal⟩ | ⟨verdict, hequal⟩ | ⟨x, y, hequal⟩ :=
    pathsEqual_cases style inNormalForm a b
  · rw [hequal, hequal]
  · rw [hequal, hequal]
  · rw [hequal, hequal]
    simp

/-! ## All comparisons -/

/-- **A looser case policy loses nothing.** Whatever matches a pattern, lies in a directory or
equals a path where case matters does so under every policy; and whether two paths can be compared
at all, or with which error not, is the same under every policy. -/
theorem accepted_of_sensitive (style : Style) (policy : CasePolicy) :
    (∀ name pattern,
      Glob.wildcardMatch (CasePolicy.sensitive.rule style) name pattern = true →
        Glob.wildcardMatch (policy.rule style) name pattern = true) ∧
    (∀ parent child, contains (CasePolicy.sensitive.rule style) parent child = true →
      contains (policy.rule style) parent child = true) ∧
    (∀ inNormalForm a b, pathsEqual style inNormalForm .sensitive a b = .ok true →
      pathsEqual style inNormalForm policy a b = .ok true) ∧
    ∀ inNormalForm a b e, pathsEqual style inNormalForm policy a b = .error e ↔
      pathsEqual style inNormalForm .sensitive a b = .error e :=
  ⟨fun _ _ h => Glob.wildcardMatch_of_exact h _, fun _ _ h => contains_of_exact h _,
    fun _ _ _ h => pathsEqual_of_sensitive h policy,
    fun _ _ _ _ => pathsEqual_eq_error_iff policy .sensitive⟩

/-- A name that matches at the first occurrence where case matters, and at the second one where it
does not. -/
theorem accepted_on_windows :
    Glob.wildcardMatch .exact (some "Bxbc".toList) (some "*b?".toList) = true ∧
    Glob.wildcardMatch .ignoring (some "Bxbc".toList) (some "*b?".toList) = true ∧
    contains .exact (some "C:\\a".toList) (some "C:\\a\\b".toList) = true ∧
    contains .ignoring (some "C:\\a".toList) (some "C:\\a\\b".toList) = true ∧
    pathsEqual .windows true .sensitive (some "a/./b".toList) (some "a\\b".toList) = .ok true ∧
    pathsEqual .windows true .system (some "a/./b".toList) (some "a\\b".toList) = .ok true := by
  have hmatch : Glob.wildcardMatch .exact (some "Bxbc".toList) (some "*b?".toList) = true := by
    decide
  have hcontains : contains .exact (some "C:\\a".toList) (some "C:\\a\\b".toList) = true := by
    decide
  have hequal : pathsEqual .windows true .sensitive (some "a/./b".toList) (some "a\\b".toList) =
      .ok true := by rfl
  obtain ⟨hglob, hinside, hpaths, -⟩ := accepted_of_sensitive .windows .system
  exact ⟨hmatch, hglob _ _ hmatch, hcontains, hinside _ _ hcontains, hequal, hpaths _ _ _ hequal⟩

end Pathname
