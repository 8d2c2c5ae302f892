import Pathname.Proofs.CaseFolding
import Pathname.Proofs.CaseMatching
import Pathname.Proofs.EqualityInNormalForm

/-!
# How far equality of paths is an equivalence

Paths that are compared as they stand are equal to themselves, and in both orders the same. A third
path that equals both of two paths makes these equal, unless one of them has the capital theta symbol
where the other one has the small theta symbol: without regard to case both equal an ordinary small
theta, but not each other.

- `CaseRule.equals_ignoring_iff`: equality of texts as equality of their folds.
- `CaseRule.equals_trans_iff`: when a third text makes two texts equal.
- `pathsEqual_equivalence`: **the main statement**.
- `not_pathsEqual_transitive`: the three thetas.
-/

namespace Pathname

open Unicode

/-- At some position one of two texts has the capital theta symbol, and the other the small one. -/
def ThetaSymbolsMeet (a b : Text) : Prop :=
  ∃ pair ∈ a.zip b, AreThetaSymbols pair.1 pair.2

instance (a b : Text) : Decidable (ThetaSymbolsMeet a b) :=
  decidable_of_iff ((a.zip b).any fun pair => AreThetaSymbols pair.1 pair.2)
    (by simp [ThetaSymbolsMeet])

@[simp] theorem thetaSymbolsMeet_cons {c d : Char} {a b : Text} :
    ThetaSymbolsMeet (c :: a) (d :: b) ↔ AreThetaSymbols c d ∨ ThetaSymbolsMeet a b := by
  simp [ThetaSymbolsMeet]

namespace CaseRule

variable {rule : CaseRule} {a b c : Text}

@[simp] theorem equals_nil : rule.equals [] b = true ↔ b = [] := by
  cases b <;> simp [equals, beginsWith]

@[simp] theorem equals_cons {x y : Char} :
    rule.equals (x :: a) (y :: b) = true ↔ rule.agrees x y = true ∧ rule.equals a b = true := by
  simp only [equals, beginsWith, List.length_cons, Bool.and_eq_true, beq_iff_eq,
    Nat.add_right_cancel_iff]
  exact and_left_comm

/-- Texts are equal without regard to case exactly if they have the same folds, and the theta symbols
do not meet. -/
theorem equals_ignoring_iff :
    ignoring.equals a b = true ↔ a.map fold = b.map fold ∧ ¬ ThetaSymbolsMeet a b := by
  induction a generalizing b with
  | nil => cases b <;> simp [ThetaSymbolsMeet]
  | cons x a ih =>
    cases b with
    | nil => simp [equals]
    | cons y b =>
      -- Both sides say something of the first characters and the same of what follows them.
      rw [equals_cons, agrees_ignoring_iff, ih, thetaSymbolsMeet_cons, List.map_cons,
        List.map_cons, List.cons.injEq, not_or]
      exact and_and_and_comm

/-- **Transitivity and its only gap.** -/
theorem equals_trans_iff (hab : rule.equals a b = true) (hbc : rule.equals b c = true) :
    rule.equals a c = true ↔ ¬ (rule = .ignoring ∧ ThetaSymbolsMeet a c) := by
  cases rule with
  | exact =>
    rw [exact_equals_iff] at hab hbc ⊢
    simp [hab, hbc]
  | ignoring =>
    have hfolds : a.map fold = c.map fold :=
      (equals_ignoring_iff.mp hab).1.trans (equals_ignoring_iff.mp hbc).1
    simp [equals_ignoring_iff, hfolds]

end CaseRule

/-- **Equality of paths as they stand.** Every path equals itself. Two paths have a verdict, which is
the same in both orders. And two paths that equal a third one equal each other, except exactly if the
comparison ignores case and at some position one of the two has the capital theta symbol and the other
one the small theta symbol. -/
theorem pathsEqual_equivalence (style : Style) (policy : CasePolicy) :
    (∀ a : Text, pathsEqual style false policy (some a) (some a) = .ok true) ∧
    (∀ a b : Text, ∃ verdict, pathsEqual style false policy (some a) (some b) = .ok verdict ∧
      pathsEqual style false policy (some b) (some a) = .ok verdict) ∧
    ∀ a b c : Text,
      pathsEqual style false policy (some a) (some b) = .ok true →
      pathsEqual style false policy (some b) (some c) = .ok true →
      (pathsEqual style false policy (some a) (some c) = .ok true ↔
        ¬ (policy.rule style = .ignoring ∧ ThetaSymbolsMeet a c)) := by
  refine ⟨fun a => ?_, fun a b => ?_, fun a b c hab hbc => ?_⟩
  · simp [pathsEqual]
  · refine ⟨(policy.rule style).equals a b, rfl, ?_⟩
    rw [CaseRule.equals_comm]
    rfl
  · simp only [pathsEqual, Bool.false_eq_true, if_false, Except.ok.injEq] at hab hbc ⊢
    exact CaseRule.equals_trans_iff hab hbc

/-- The long s and the capital S equal the small s, so they equal each other. -/
theorem pathsEqual_of_long_s :
    pathsEqual .windows false .system (some "\u017f".toList) (some "s".toList) = .ok true ∧
    pathsEqual .windows false .system (some "s".toList) (some "S".toList) = .ok true ∧
    ¬ (CasePolicy.system.rule .windows = .ignoring ∧
      ThetaSymbolsMeet "\u017f".toList "S".toList) ∧
    pathsEqual .windows false .system (some "\u017f".toList) (some "S".toList) = .ok true := by
  have hlong : pathsEqual .windows false .system (some "\u017f".toList) (some "s".toList) =
      .ok true := by rfl
  have hcapital : pathsEqual .windows false .system (some "s".toList) (some "S".toList) =
      .ok true := by rfl
  have hapart : ¬ (CasePolicy.system.rule .windows = .ignoring ∧
      ThetaSymbolsMeet "\u017f".toList "S".toList) := by
    simp [ThetaSymbolsMeet, AreThetaSymbols]
  have htransitive := (pathsEqual_equivalence .windows .system).2.2
  exact ⟨hlong, hcapital, hapart, (htransitive _ _ _ hlong hcapital).mpr hapart⟩

/-- Equality is no equivalence: the capital theta symbol equals the small theta, which equals the small
theta symbol, but the two symbols differ. -/
theorem not_pathsEqual_transitive :
    ¬ ∀ (style : Style) (policy : CasePolicy), Equivalence fun a b : Text =>
      pathsEqual style false policy (some a) (some b) = .ok true := by
  intro h
  have hcapital : pathsEqual .unix false .insensitive (some "\u03f4".toList)
      (some "\u03b8".toList) = .ok true := by rfl
  have hsmall : pathsEqual .unix false .insensitive (some "\u03b8".toList)
      (some "\u03d1".toList) = .ok true := by rfl
  have hsymbols : pathsEqual .unix false .insensitive (some "\u03f4".toList)
      (some "\u03d1".toList) = .ok false := by rfl
  have htransitive := (h .unix .insensitive).trans hcapital hsmall
  rw [hsymbols] at htransitive
  exact absurd (Except.ok.inj htransitive) Bool.false_ne_true

end Pathname
