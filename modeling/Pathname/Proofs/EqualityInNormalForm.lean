import Pathname.Proofs.LooserCase
import Pathname.Proofs.NormalForm

/-!
# Equality of normal forms

Two paths that are compared in normal form are written in it one after the other, and the second one
is left alone when the first one has no normal form. So a NUL character in the first path is always
an error, and one in the second path only if the comparison gets that far: `..` and a path with a
NUL character are unequal, and the same paths in the opposite order are an error. Without NUL
characters the order does not matter.

- `comparable_cases`: the sides of a comparison.
- `pathsEqual_inNormalForm_error_iff`: when there is an error, and which one.
- `pathsEqual_inNormalForm_comm`: without NUL characters there is a verdict, in both orders the same.
- `pathsEqual_inNormalForm`: **the main statement**.
- `not_pathsEqual_refuses_every_nul`: the reading that fails.
-/

namespace Pathname

/-! ## Texts -/

namespace CaseRule

theorem beginsWith_comm {rule : CaseRule} {a b : Text} (h : a.length = b.length) :
    rule.beginsWith a b = rule.beginsWith b a := by
  induction a generalizing b with
  | nil =>
    obtain rfl : b = [] := List.length_eq_zero_iff.mp h.symm
    rfl
  | cons c more ih =>
    cases b with
    | nil => contradiction
    | cons d rest => rw [beginsWith, beginsWith, rule.agrees_comm, ih (Nat.succ.inj h)]

/-- Equality under a case rule is symmetric, though it is not transitive. -/
theorem equals_comm (rule : CaseRule) (a b : Text) : rule.equals a b = rule.equals b a := by
  by_cases h : a.length = b.length
  · rw [equals, equals, beginsWith_comm h, h]
  · have hab : (a.length == b.length) = false := beq_eq_false_iff_ne.mpr h
    have hba : (b.length == a.length) = false := beq_eq_false_iff_ne.mpr (Ne.symm h)
    rw [equals, equals, hab, hba, Bool.false_and, Bool.false_and]

end CaseRule

variable {style : Style} {policy : CasePolicy} {t a b x : Text}

/-! ## The sides of a comparison -/

/-- A side of a comparison is what its normal form is, without the error of a malformed root. -/
theorem comparable_eq_some_iff :
    comparable style t = .ok (some x) ↔ normalize style style.separator true t = .ok (some x) := by
  rw [comparable]
  split
  · rename_i path hmalformed
    simp [hmalformed]
  · exact Iff.rfl

/-- The only error of a side is that it holds a NUL character. -/
theorem comparable_cases (style : Style) (t : Text) :
    ('\x00' ∈ t ∧ comparable style t = .error ⟨.nulCharacter, t⟩) ∨
      ('\x00' ∉ t ∧ ∃ form, comparable style t = .ok form) := by
  by_cases hnul : '\x00' ∈ t
  · left
    refine ⟨hnul, ?_⟩
    rw [comparable, normalize_of_nul hnul]
  · right
    refine ⟨hnul, ?_⟩
    rw [comparable]
    cases hroot : Root.classify style t with
    | none =>
      rw [normalize_of_malformed hnul hroot]
      exact ⟨none, rfl⟩
    | some root =>
      rw [normalize_of_rooted hnul (rooted_of_classify hroot)]
      exact ⟨_, rfl⟩

/-! ## Errors -/

/-- **Which error a comparison finds.** The one of the first path; or, if the first path has a normal
form, the one of the second path. -/
theorem pathsEqual_inNormalForm_error_iff {e : PathError} :
    pathsEqual style true policy (some a) (some b) = .error e ↔
      ('\x00' ∈ a ∧ e = ⟨.nulCharacter, a⟩) ∨
      ((∃ x, normalize style style.separator true a = .ok (some x)) ∧
        '\x00' ∈ b ∧ e = ⟨.nulCharacter, b⟩) := by
  simp only [← comparable_eq_some_iff]
  obtain ⟨hnul, ha⟩ | ⟨hnul, form, ha⟩ := comparable_cases style a
  · simp [pathsEqual_of_error ha, ha, hnul, eq_comm]
  · cases form with
    | none => simp [pathsEqual_of_no_normalForm ha, ha, hnul]
    | some x =>
      -- The first path has a normal form, so all depends on the second one.
      rw [pathsEqual_of_normalForm ha]
      obtain ⟨hnul', hb⟩ | ⟨hnul', form', hb⟩ := comparable_cases style b
      · simp [hb, ha, hnul, hnul', Except.map, eq_comm]
      · simp [hb, hnul, hnul', Except.map]

theorem pathsEqual_of_not_normalizable (ha : '\x00' ∉ a)
    (hform : ∀ x, normalize style style.separator true a ≠ .ok (some x)) :
    pathsEqual style true policy (some a) (some b) = .ok false := by
  obtain ⟨hnul, -⟩ | ⟨-, form, hcomparable⟩ := comparable_cases style a
  · exact absurd hnul ha
  · cases form with
    | none => exact pathsEqual_of_no_normalForm hcomparable
    | some x => exact absurd (comparable_eq_some_iff.mp hcomparable) (hform x)

/-! ## Verdicts -/

/-- The verdict on two sides: both are there, and they are equal. -/
def formsEqual (rule : CaseRule) : Option Text → Option Text → Bool
  | some x, some y => rule.equals x y
  | _, _ => false

theorem formsEqual_comm (rule : CaseRule) (first second : Option Text) :
    formsEqual rule first second = formsEqual rule second first := by
  cases first with
  | none => cases second <;> rfl
  | some x =>
    cases second with
    | none => rfl
    | some y => exact rule.equals_comm x y

theorem pathsEqual_of_comparable {first second : Option Text}
    (ha : comparable style a = .ok first) (hb : comparable style b = .ok second) :
    pathsEqual style true policy (some a) (some b) =
      .ok (formsEqual (policy.rule style) first second) := by
  cases first with
  | none => exact pathsEqual_of_no_normalForm ha
  | some x =>
    rw [pathsEqual_of_normalForm ha, hb]
    cases second <;> rfl

/-- Without NUL characters two paths have a verdict, and it does not depend on their order. -/
theorem pathsEqual_inNormalForm_comm (ha : '\x00' ∉ a) (hb : '\x00' ∉ b) :
    ∃ verdict, pathsEqual style true policy (some a) (some b) = .ok verdict ∧
      pathsEqual style true policy (some b) (some a) = .ok verdict := by
  obtain ⟨first, hfirst⟩ := ((comparable_cases style a).resolve_left fun h => ha h.1).2
  obtain ⟨second, hsecond⟩ := ((comparable_cases style b).resolve_left fun h => hb h.1).2
  refine ⟨_, pathsEqual_of_comparable hfirst hsecond, ?_⟩
  rw [formsEqual_comm]
  exact pathsEqual_of_comparable hsecond hfirst

/-- **Equality in normal form, errors and verdicts.** There is an error exactly if the first path
holds a NUL character, or if the first path has a normal form and the second one holds a NUL
character; the error carries the path in which the character is. A first path without a NUL
character and without a normal form equals nothing, not even what would be an error by itself. And
two paths without NUL characters have a verdict, which is the same in both orders. -/
theorem pathsEqual_inNormalForm (style : Style) (policy : CasePolicy) (a b : Text) :
    (∀ e, pathsEqual style true policy (some a) (some b) = .error e ↔
      ('\x00' ∈ a ∧ e = ⟨.nulCharacter, a⟩) ∨
      ((∃ x, normalize style style.separator true a = .ok (some x)) ∧
        '\x00' ∈ b ∧ e = ⟨.nulCharacter, b⟩)) ∧
    ('\x00' ∉ a → (∀ x, normalize style style.separator true a ≠ .ok (some x)) →
      pathsEqual style true policy (some a) (some b) = .ok false) ∧
    ('\x00' ∉ a → '\x00' ∉ b →
      ∃ verdict, pathsEqual style true policy (some a) (some b) = .ok verdict ∧
        pathsEqual style true policy (some b) (some a) = .ok verdict) :=
  ⟨fun _ => pathsEqual_inNormalForm_error_iff, pathsEqual_of_not_normalizable,
    pathsEqual_inNormalForm_comm⟩

/-- A first path that climbs over its root hides the NUL character of the second one; and two paths
that are equal in normal form, in both orders. -/
theorem pathsEqual_inNormalForm_of_climbing :
    '\x00' ∉ "..".toList ∧ '\x00' ∈ "\x00".toList ∧
    (∀ x, normalize .unix .slash true "..".toList ≠ .ok (some x)) ∧
    pathsEqual .unix true .sensitive (some "..".toList) (some "\x00".toList) = .ok false ∧
    '\x00' ∉ "a/./b".toList ∧ '\x00' ∉ "A\\B".toList ∧
    ∃ verdict,
      pathsEqual .windows true .system (some "a/./b".toList) (some "A\\B".toList) = .ok verdict ∧
      pathsEqual .windows true .system (some "A\\B".toList) (some "a/./b".toList) = .ok verdict := by
  have hclimbs : '\x00' ∉ "..".toList := by decide
  have hform : ∀ x, normalize .unix .slash true "..".toList ≠ .ok (some x) := by
    intro x hx
    have hnone : normalize .unix .slash true "..".toList = .ok none := by rfl
    rw [hnone] at hx
    exact absurd (Except.ok.inj hx) (by simp)
  have ha : '\x00' ∉ "a/./b".toList := by decide
  have hb : '\x00' ∉ "A\\B".toList := by decide
  have hhidden := (pathsEqual_inNormalForm .unix .sensitive "..".toList "\x00".toList).2.1
  have hverdict := (pathsEqual_inNormalForm .windows .system "a/./b".toList "A\\B".toList).2.2
  exact ⟨hclimbs, by decide, hform, hhidden hclimbs hform, ha, hb, hverdict ha hb⟩

/-- Not every NUL character is refused: behind a path that climbs over its root it goes unseen. -/
theorem not_pathsEqual_refuses_every_nul :
    ¬ ∀ (style : Style) (policy : CasePolicy) (a b : Text),
      (∃ path, pathsEqual style true policy (some a) (some b) = .error ⟨.nulCharacter, path⟩) ↔
        '\x00' ∈ a ∨ '\x00' ∈ b := by
  intro h
  have hunseen : pathsEqual .unix true .sensitive (some "..".toList) (some "\x00".toList) =
      .ok false := by rfl
  obtain ⟨path, herror⟩ := (h .unix .sensitive "..".toList "\x00".toList).mpr (by decide)
  rw [hunseen] at herror
  contradiction

end Pathname
