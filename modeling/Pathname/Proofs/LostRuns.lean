import Pathname.CasePolicy
import Pathname.Proofs.GlobEffective

/-!
# Runs in front of a `?`

A `*` right in front of a `?` should take any run of characters, as everywhere else. It takes none:
the `?` ends its effect, and no literal is there for which a place would be saved. Here this is said
of the pattern as it is written, where it can be said without the tokens: such a `*` may be deleted.

- `withoutLostRuns`: a pattern without these `*`.
- `effective_tokens`: its tokens are the tokens of the pattern that have an effect.
- `run_before_one_takes_nothing`: **the main statement**, deleting such a `*` changes no verdict, and
  what is left once all of them are deleted describes exactly the names that match.
- `not_run_before_one_takes_any_run`: the reading that fails.
-/

namespace Pathname.Glob

variable {rule : CaseRule} {text pattern : Text}

/-! ## Deleting the runs -/

/-- A pattern without every `*` that stands right in front of a `?`, or would stand there once the
`*` between them is deleted. -/
def withoutLostRuns : Text → Text
  | [] => []
  | c :: rest =>
    if c = '*' ∧ (withoutLostRuns rest).head? = some '?' then withoutLostRuns rest
    else c :: withoutLostRuns rest

/-- Nothing is deleted before another character than `*`. -/
theorem withoutLostRuns_cons {c : Char} (hc : c ≠ '*') (rest : Text) :
    withoutLostRuns (c :: rest) = c :: withoutLostRuns rest :=
  if_neg fun h => hc h.1

theorem withoutLostRuns_append_run (before after : Text) :
    withoutLostRuns (before ++ '*' :: '?' :: after) = withoutLostRuns (before ++ '?' :: after) := by
  induction before with
  | nil =>
    have hone : withoutLostRuns ('?' :: after) = '?' :: withoutLostRuns after :=
      withoutLostRuns_cons (by decide) after
    show withoutLostRuns ('*' :: '?' :: after) = withoutLostRuns ('?' :: after)
    rw [withoutLostRuns]
    exact if_pos ⟨rfl, by rw [hone, List.head?_cons]⟩
  | cons c more ih => simp only [List.cons_append, withoutLostRuns, ih]

/-- Only `*` in front of a `?` are deleted, so some character is left of a pattern that has one. -/
theorem withoutLostRuns_eq_nil_iff : withoutLostRuns pattern = [] ↔ pattern = [] := by
  constructor
  · intro h
    cases pattern with
    | nil => rfl
    | cons c rest =>
      rw [withoutLostRuns] at h
      split at h
      · rename_i hlost
        simp [h] at hlost
      · contradiction
  · rintro rfl
    rfl

/-! ## The tokens that are left -/

theorem head?_read_iff : (read pattern).head? = some .one ↔ pattern.head? = some '?' := by
  constructor
  · exact head?_of_head?_read
  · intro h
    obtain ⟨more, rfl⟩ := List.head?_eq_some_iff.mp h
    rfl

/-- A `*` in front of tokens has an effect unless a `?` comes first among those that have one. -/
theorem effective_addMany (tokens : List Token) :
    effective (addMany tokens) =
      if (effective tokens).head? = some .one then effective tokens
      else addMany (effective tokens) := by
  cases tokens with
  | nil => rfl
  | cons token rest =>
    cases token with
    | one => rfl
    | literal text => rfl
    | many =>
      -- The `*` is there already, with the same effect as one more.
      show effective (.many :: rest) = _
      by_cases h : (effective rest).head? = some .one
      · rw [effective_many_of_one h, if_pos h]
      · rw [effective_many_of_lasting h]
        rfl

theorem effective_addLiteral (c : Char) (tokens : List Token) :
    effective (addLiteral c tokens) = addLiteral c (effective tokens) := by
  cases tokens with
  | nil => rfl
  | cons token rest =>
    cases token with
    | one => rfl
    | literal text => rfl
    | many =>
      show .literal [c] :: effective (.many :: rest) = _
      -- Either the `*` or the `?` that ends its effect comes behind the literal.
      by_cases h : (effective rest).head? = some .one
      · obtain ⟨more, hmore⟩ := List.head?_eq_some_iff.mp h
        rw [effective_many_of_one h, hmore]
        rfl
      · rw [effective_many_of_lasting h]
        rfl

theorem effective_read (pattern : Text) :
    effective (read pattern) = read (withoutLostRuns pattern) := by
  induction pattern with
  | nil => rfl
  | cons c rest ih =>
    by_cases hone : c = '?'
    · subst hone
      rw [withoutLostRuns_cons (by decide)]
      exact congrArg (List.cons Token.one) ih
    · by_cases hmany : c = '*'
      · subst hmany
        have hread : read ('*' :: rest) = addMany (read rest) := rfl
        rw [hread, effective_addMany, ih, withoutLostRuns]
        -- On both sides the question is whether a `?` comes next.
        simp only [head?_read_iff, true_and]
        split <;> rfl
      · rw [withoutLostRuns_cons hmany, read, read, if_neg hone, if_neg hmany, if_neg hone,
          if_neg hmany, effective_addLiteral, ih]

/-- **The tokens that have an effect** are those of the pattern without the runs that are lost. -/
theorem effective_tokens (pattern : Text) :
    effective (tokens pattern) = tokens (withoutLostRuns pattern) := by
  by_cases h : pattern = []
  · subst h
    rfl
  · have hleft : withoutLostRuns pattern ≠ [] := mt withoutLostRuns_eq_nil_iff.mp h
    rw [tokens, tokens, if_neg (by simpa using h), if_neg (by simpa using hleft), effective_read]

theorem isMatch_iff_describes_withoutLostRuns :
    isMatch rule text pattern = true ↔ Describes rule (tokens (withoutLostRuns pattern)) text := by
  rw [isMatch_iff_describes, effective_tokens]

/-- Patterns that are the same without the runs that are lost accept the same texts. -/
theorem isMatch_congr {other : Text} (h : withoutLostRuns pattern = withoutLostRuns other) :
    isMatch rule text pattern = isMatch rule text other := by
  rw [Bool.eq_iff_iff, isMatch_iff_describes_withoutLostRuns, h,
    isMatch_iff_describes_withoutLostRuns]

/-- **A run in front of a `?` takes nothing.** Under any case policy a name matches the same with
the `*` deleted. A pattern with such a `*` accepts exactly the names that it describes when all of
these `*` are deleted; a name that it describes only if one of them takes a character is lost. -/
theorem run_before_one_takes_nothing (style : Style) (policy : CasePolicy)
    (name before after : Text) :
    wildcardMatch (policy.rule style) (some name) (some (before ++ '*' :: '?' :: after)) =
      wildcardMatch (policy.rule style) (some name) (some (before ++ '?' :: after)) ∧
    (wildcardMatch (policy.rule style) (some name) (some (before ++ '*' :: '?' :: after)) = true ↔
      Describes (policy.rule style) (tokens (withoutLostRuns (before ++ '*' :: '?' :: after)))
        name) :=
  ⟨isMatch_congr (withoutLostRuns_append_run before after), isMatch_iff_describes_withoutLostRuns⟩

/-- A `*` in front of a `?` does not take any run: of `ab` it would have to take one character. -/
theorem not_run_before_one_takes_any_run :
    ¬ ∀ (style : Style) (policy : CasePolicy) (name pattern : Text), ['*', '?'] <:+: pattern →
      Describes (policy.rule style) (tokens pattern) name →
        wildcardMatch (policy.rule style) (some name) (some pattern) = true := by
  intro h
  have hdescribed : Describes .exact (tokens "*?".toList) "ab".toList :=
    .many ['a'] (.one 'b' .nil)
  have hmatch : isMatch .exact "ab".toList "*?".toList = true :=
    h .unix .sensitive "ab".toList "*?".toList (List.infix_refl _) hdescribed
  -- The `?` takes the `a`, and nothing is left for the `b`.
  rw [isMatch_iff_describes_withoutLostRuns] at hmatch
  obtain ⟨c, more, htext, hrest⟩ := describes_one_iff.mp hmatch
  obtain rfl : ['b'] = more := (List.cons.inj htext).2
  contradiction

/-- Two runs are lost, and one lasts. -/
example : withoutLostRuns "a**?*?b*c".toList = "a??b*c".toList := by decide

end Pathname.Glob
