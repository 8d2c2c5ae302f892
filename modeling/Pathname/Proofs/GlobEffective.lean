import Pathname.Proofs.GlobComplete

/-!
# The language that the matcher decides

A `?` ends the effect of a `*` right before it, so such a `*` is as good as absent. Without these
tokens every `*` lasts up to the literal behind it, and there the matcher is sound and complete. So
its verdict is said in full, for every pattern.

- `effective`: the tokens that have an effect.
- `attempt_effective`, `search_effective`: attempts and searches do the same without the others.
- `isMatch_iff_describes`: **the main statement**, a text is accepted exactly if the tokens that
  have an effect describe it.
-/

namespace Pathname.Glob

variable {rule : CaseRule} {rest : List Token} {text pattern : Text}

/-! ## Tokens with an effect -/

/-- The tokens of a list without every `*` that has a `?` right behind it. -/
def effective : List Token → List Token
  | [] => []
  | .many :: rest =>
    if (effective rest).head? = some .one then effective rest else .many :: effective rest
  | .one :: rest => .one :: effective rest
  | .literal text :: rest => .literal text :: effective rest

theorem effective_many_of_one (h : (effective rest).head? = some .one) :
    effective (.many :: rest) = effective rest :=
  if_pos h

theorem effective_many_of_lasting (h : (effective rest).head? ≠ some .one) :
    effective (.many :: rest) = .many :: effective rest :=
  if_neg h

/-- The last token has an effect, so some token has one. -/
theorem effective_isEmpty (tokens : List Token) : (effective tokens).isEmpty = tokens.isEmpty := by
  cases tokens with
  | nil => rfl
  | cons token rest =>
    cases token with
    | one => rfl
    | literal => rfl
    | many =>
      by_cases h : (effective rest).head? = some .one
      · obtain ⟨more, hmore⟩ := List.head?_eq_some_iff.mp h
        rw [effective_many_of_one h, hmore]
        rfl
      · rw [effective_many_of_lasting h]
        rfl

theorem lasting_effective (tokens : List Token) : Lasting (effective tokens) := by
  induction tokens with
  | nil => exact fun hwithin => absurd hwithin.length_le (by decide)
  | cons token rest ih =>
    cases token with
    | one => exact ih.cons (by simp)
    | literal => exact ih.cons (by simp)
    | many =>
      by_cases h : (effective rest).head? = some .one
      · rw [effective_many_of_one h]
        exact ih
      · rw [effective_many_of_lasting h]
        exact ih.many_cons h

/-! ## Attempts and searches -/

/-- A saved place at which only the tokens with an effect are left. -/
def SavePoint.effective (point : SavePoint) : SavePoint :=
  ⟨Glob.effective point.tokens, point.text⟩

/-- A `?` takes a character, whatever comes before it. -/
theorem attempt_one (free other : Bool) :
    attempt rule (.one :: rest) free text = attempt rule (.one :: rest) other text := by
  cases text <;> rfl

theorem nextPlace?_effective (rule : CaseRule) (literal found : Text) (rest : List Token) :
    nextPlace? rule literal (effective rest) found =
      (nextPlace? rule literal rest found).map SavePoint.effective := by
  cases found with
  | nil => rfl
  | cons c behind =>
    rw [nextPlace?, nextPlace?, Option.map_map]
    rfl

/-- **An attempt does the same without the tokens that have no effect.** It comes out alike, and
saves the same places. -/
theorem attempt_effective (rule : CaseRule) (tokens : List Token) (free : Bool) (text : Text) :
    attempt rule (effective tokens) free text =
      ⟨(attempt rule tokens free text).left,
        (attempt rule tokens free text).saved.map SavePoint.effective⟩ := by
  fun_induction attempt rule tokens free text with
  | case1 => rfl
  | case2 => rfl
  | case3 free rest c text ih => exact ih
  | case4 free rest text ih =>
    by_cases h : (effective rest).head? = some .one
    · -- The `*` is left out, and the `?` behind it does not miss it.
      obtain ⟨more, hmore⟩ := List.head?_eq_some_iff.mp h
      have hempty : rest.isEmpty = false := by
        rw [← effective_isEmpty, hmore]
        rfl
      rw [effective_many_of_one h]
      rw [hempty, if_neg Bool.false_ne_true] at ih ⊢
      rw [← ih, hmore]
      exact attempt_one ..
    · rw [effective_many_of_lasting h, attempt, effective_isEmpty]
      exact ih
  | case5 literal rest text hnone =>
    rw [effective, attempt, hnone]
    rfl
  | case6 literal rest text found hfound further ih =>
    rw [effective, attempt, hfound]
    have hnext := congrArg Option.toList (nextPlace?_effective rule literal found rest)
    rw [Option.toList_map] at hnext
    simp only [ih, hnext, List.map_append, further]
  | case7 literal rest text hbegins ih =>
    rw [effective, attempt, if_pos hbegins]
    exact ih
  | case8 literal rest text hbegins =>
    rw [effective, attempt, if_neg hbegins]
    rfl

theorem search_effective (points : List SavePoint) :
    search rule (points.map SavePoint.effective) = search rule points := by
  fun_induction search rule points with
  | case1 => rw [List.map_nil, search]
  | case2 point stack outcome ih =>
    have hattempt : attempt rule point.effective.tokens true point.effective.text =
        ⟨outcome.left, outcome.saved.map SavePoint.effective⟩ :=
      attempt_effective rule point.tokens true point.text
    rw [List.map_cons, search, hattempt]
    simp only [← List.map_append, ih]
    rfl

theorem accepts_effective_iff {tokens : List Token} :
    Accepts rule (effective tokens) text ↔ Accepts rule tokens text := by
  rw [Accepts, attempt_effective, search_effective, Accepts]
  exact Iff.rfl

/-- **The matcher decides the language of the tokens that have an effect.** -/
theorem isMatch_iff_describes :
    isMatch rule text pattern = true ↔ Describes rule (effective (tokens pattern)) text := by
  rw [isMatch_iff_accepts, ← accepts_effective_iff]
  exact ⟨describes_of_accepts, accepts_of_describes (lasting_effective _)⟩

/-- Of the run in front of the `?` nothing is left. -/
example : effective (tokens "a*?b*c".toList) =
    [.literal ['a'], .one, .literal ['b'], .many, .literal ['c']] := by decide

end Pathname.Glob
