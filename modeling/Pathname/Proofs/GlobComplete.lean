import Pathname.CasePolicy
import Pathname.Glob.Language
import Pathname.Proofs.CaseMatching

/-!
# Completeness of pattern matching

A matcher that takes the first occurrence of every literal could miss the texts in which a later
occurrence is the right one. This one does not, as long as no `?` ends the effect of a `*`: every
occurrence that an attempt passes over lies behind a place that the attempt has saved.

- `Lasting`: no `?` stands right behind a `*`.
- `exists_match_of_attempt`: an attempt at a text that is described succeeds, or saves a place from
  which the text is still described.
- `search_of_describes`: a search that starts from such a place succeeds.
- `wildcardMatch_describes`: what a match says of the text, in both directions.
-/

namespace Pathname.Glob

/-! ## Patterns whose runs last -/

/-- Tokens in which the effect of every `*` lasts up to the literal behind it. -/
def Lasting (tokens : List Token) : Prop := ¬ [.many, .one] <:+: tokens

theorem Lasting.of_suffix {first second : List Token} (h : Lasting second)
    (hsuffix : first <:+ second) : Lasting first :=
  fun hwithin => h (hwithin.trans hsuffix.isInfix)

theorem not_lasting_many_one (rest : List Token) : ¬ Lasting (.many :: .one :: rest) :=
  fun h => h ⟨[], rest, rfl⟩

theorem Lasting.cons {token : Token} {rest : List Token} (h : Lasting rest)
    (htoken : token ≠ .many) : Lasting (token :: rest) := by
  intro hwithin
  rcases List.infix_cons_iff.mp hwithin with hfront | hwithin
  · exact htoken (List.cons_prefix_cons.mp hfront).1.symm
  · exact h hwithin

theorem Lasting.many_cons {rest : List Token} (h : Lasting rest)
    (hrest : rest.head? ≠ some .one) : Lasting (.many :: rest) := by
  intro hwithin
  rcases List.infix_cons_iff.mp hwithin with hfront | hwithin
  · obtain ⟨more, rfl⟩ := (List.cons_prefix_cons.mp hfront).2
    exact hrest rfl
  · exact h hwithin

theorem lasting_addLiteral {rest : List Token} (h : Lasting rest) (c : Char) :
    Lasting (addLiteral c rest) := by
  unfold addLiteral
  split
  · have hmore := h.of_suffix (List.suffix_cons _ _)
    exact hmore.cons (by simp)
  · exact h.cons (by simp)

theorem lasting_addMany {rest : List Token} (h : Lasting rest) (hrest : rest.head? ≠ some .one) :
    Lasting (addMany rest) := by
  unfold addMany
  split
  · exact h
  · exact h.many_cons hrest

theorem lasting_read {pattern : Text} (h : ¬ ['*', '?'] <:+: pattern) : Lasting (read pattern) := by
  induction pattern with
  | nil => exact fun hwithin => absurd hwithin (by simp [read])
  | cons c rest ih =>
    have hrest : Lasting (read rest) := by
      apply ih
      intro hwithin
      exact h (hwithin.trans (List.suffix_cons c rest).isInfix)
    rw [read]
    split
    · exact hrest.cons (by simp)
    · split
      · rename_i hc
        apply lasting_addMany hrest
        -- A `?` in front of the other tokens would stand right behind this `*` in the pattern.
        intro hone
        have hhead : rest.head? = some '?' := head?_of_head?_read hone
        obtain ⟨after, rfl⟩ := List.head?_eq_some_iff.mp hhead
        exact h ⟨[], after, by rw [hc]; rfl⟩
      · exact lasting_addLiteral hrest c

theorem lasting_tokens {pattern : Text} (h : ¬ ['*', '?'] <:+: pattern) :
    Lasting (tokens pattern) := by
  rw [tokens]
  split
  · intro hwithin
    exact absurd hwithin.length_le (by decide)
  · exact lasting_read h

/-! ## Described texts, token by token -/

theorem describes_one_iff {rule : CaseRule} {rest : List Token} {text : Text} :
    Describes rule (.one :: rest) text ↔ ∃ c more, text = c :: more ∧ Describes rule rest more := by
  constructor
  · intro h
    cases h with
    | one c h => exact ⟨c, _, rfl, h⟩
  · rintro ⟨c, more, rfl, h⟩
    exact .one c h

theorem describes_many_iff {rule : CaseRule} {rest : List Token} {text : Text} :
    Describes rule (.many :: rest) text ↔
      ∃ ending, ending <:+ text ∧ Describes rule rest ending := by
  constructor
  · intro h
    cases h with
    | many run h => exact ⟨_, List.suffix_append _ _, h⟩
  · rintro ⟨ending, ⟨run, rfl⟩, h⟩
    exact .many run h

theorem describes_literal_iff {rule : CaseRule} {literal : Text} {rest : List Token} {text : Text} :
    Describes rule (.literal literal :: rest) text ↔
      rule.beginsWith text literal = true ∧ Describes rule rest (text.drop literal.length) := by
  constructor
  · intro h
    cases h with
    | literal hequals h =>
      refine ⟨CaseRule.beginsWith_append (CaseRule.beginsWith_of_equals hequals) _, ?_⟩
      rw [← CaseRule.length_eq_of_equals hequals, List.drop_left]
      exact h
  · intro h
    exact .of_beginsWith h.1 h.2

/-! ## An attempt loses no match -/

/-- A literal that stands anywhere in a text stands at its first occurrence or behind the next
place. -/
theorem eq_or_exists_nextPlace? {rule : CaseRule} {literal found ending : Text} {rest : List Token}
    (hending : ending <:+ found) (hbegins : rule.beginsWith ending literal = true) :
    ending = found ∨
      ∃ point, nextPlace? rule literal rest found = some point ∧
        point.tokens = .literal literal :: rest ∧ ending <:+ point.text := by
  cases found with
  | nil => exact Or.inl (List.suffix_nil.mp hending)
  | cons c behind =>
    rcases List.suffix_cons_iff.mp hending with hsame | hlater
    · exact Or.inl hsame
    · obtain ⟨again, hagain, hsuffix⟩ := CaseRule.exists_seek_of_suffix hlater hbegins
      have hnext : nextPlace? rule literal rest (c :: behind) =
          some ⟨.literal literal :: rest, again⟩ := by
        rw [nextPlace?, hagain]
        rfl
      exact Or.inr ⟨_, hnext, rfl, hsuffix⟩

/-- **A literal behind a `*` is found.** What follows it is described behind its first occurrence,
or the text is still described from the next place on. -/
theorem exists_seek_of_describes {rule : CaseRule} {literal text : Text} {rest : List Token}
    (h : Describes rule (.many :: .literal literal :: rest) text) :
    ∃ found, rule.seek literal text = some found ∧
      (Describes rule rest (found.drop literal.length) ∨
        ∃ point, nextPlace? rule literal rest found = some point ∧
          Describes rule (.many :: point.tokens) point.text) := by
  obtain ⟨ending, hending, hdescribed⟩ := describes_many_iff.mp h
  obtain ⟨hbegins, hrest⟩ := describes_literal_iff.mp hdescribed
  obtain ⟨found, hfound, hback⟩ := CaseRule.exists_seek_of_suffix hending hbegins
  refine ⟨found, hfound, ?_⟩
  rcases eq_or_exists_nextPlace? hback hbegins with rfl | ⟨point, hpoint, htokens, hsuffix⟩
  · -- The first occurrence is the right one.
    exact Or.inl hrest
  · -- A later occurrence is the right one: it lies behind the next place.
    refine Or.inr ⟨point, hpoint, ?_⟩
    rw [htokens]
    exact describes_many_iff.mpr ⟨ending, hsuffix, hdescribed⟩

/-- **An attempt loses no match.** If the tokens describe the text, and no `?` ends the effect of
a `*`, then the attempt succeeds or saves a place from which the text is still described. -/
theorem exists_match_of_attempt {rule : CaseRule} {tokens : List Token} {free : Bool} {text : Text}
    (hlasting : Lasting (behind free tokens)) (hend : free = true → tokens = [] → text = [])
    (h : Describes rule (behind free tokens) text) :
    (attempt rule tokens free text).left = some [] ∨
      ∃ point ∈ (attempt rule tokens free text).saved,
        Describes rule (.many :: point.tokens) point.text := by
  fun_induction attempt rule tokens free text with
  | case1 free text =>
    cases free with
    | false =>
      cases h
      exact Or.inl rfl
    | true => exact Or.inl (congrArg some (hend rfl rfl))
  | case2 free rest =>
    -- No character is left for the `?`, and a `*` in front of it is ruled out.
    cases free with
    | false =>
      obtain ⟨c, more, htext, -⟩ := describes_one_iff.mp h
      exact absurd htext (by simp)
    | true => exact absurd hlasting (not_lasting_many_one rest)
  | case3 free rest c text ih =>
    cases free with
    | false =>
      obtain ⟨d, more, htext, hmore⟩ := describes_one_iff.mp h
      obtain ⟨-, rfl⟩ := List.cons.inj htext
      exact ih (hlasting.of_suffix (List.suffix_cons _ _)) (fun hfree => by simp at hfree) hmore
    | true => exact absurd hlasting (not_lasting_many_one rest)
  | case4 free rest text ih =>
    -- Two `*` count as one, and the last token takes all that is left.
    have hmany : Describes rule (.many :: rest) text := by
      cases free with
      | false => exact h
      | true => exact h.of_many_many
    have hsuffix : .many :: rest <:+ behind free (.many :: rest) := by
      cases free with
      | false => exact List.suffix_refl _
      | true => exact List.suffix_cons _ _
    apply ih (hlasting.of_suffix hsuffix)
    · intro _ hnil
      rw [hnil]
      rfl
    · show Describes rule (.many :: rest) (if rest.isEmpty then [] else text)
      split
      · rename_i hempty
        obtain rfl : rest = [] := List.isEmpty_iff.mp hempty
        exact .many [] .nil
      · exact hmany
  | case5 literal rest text hnone =>
    obtain ⟨found, hfound, -⟩ := exists_seek_of_describes h
    rw [hnone] at hfound
    exact absurd hfound (by simp)
  | case6 literal rest text found hfound further ih =>
    obtain ⟨found', hfound', hmatch⟩ := exists_seek_of_describes h
    obtain rfl : found = found' := Option.some.inj (hfound.symm.trans hfound')
    rcases hmatch with hrest | ⟨point, hpoint, hdescribed⟩
    · -- The walk goes on behind the first occurrence.
      have hlater := hlasting.of_suffix (List.suffix_append [.many, .literal literal] rest)
      rcases ih hlater (fun hfree => by simp at hfree) hrest with hdone | ⟨point, hmem, hpoint⟩
      · exact Or.inl hdone
      · exact Or.inr ⟨point, List.mem_append_left _ hmem, hpoint⟩
    · -- The next place is saved.
      have hmem := List.mem_append_right further.saved (Option.mem_toList.mpr hpoint)
      exact Or.inr ⟨point, hmem, hdescribed⟩
  | case7 literal rest text hbegins ih =>
    have hlater := hlasting.of_suffix (List.suffix_cons (.literal literal) rest)
    exact ih hlater (fun hfree => by simp at hfree) (describes_literal_iff.mp h).2
  | case8 literal rest text hbegins =>
    exact absurd (describes_literal_iff.mp h).1 hbegins

/-! ## A search loses no match -/

/-- A saved place waits for a literal. -/
theorem exists_literal_of_mem_saved {rule : CaseRule} {tokens : List Token} {free : Bool}
    {text : Text} {point : SavePoint} (h : point ∈ (attempt rule tokens free text).saved) :
    ∃ literal rest, point.tokens = .literal literal :: rest := by
  fun_induction attempt rule tokens free text with
  | case1 | case2 | case5 | case8 => exact absurd h List.not_mem_nil
  | case3 _ _ _ _ ih | case4 _ _ _ ih | case7 _ _ _ _ ih => exact ih h
  | case6 literal rest text found hfound further ih =>
    rcases List.mem_append.mp h with hfurther | hnext
    · exact ih hfurther
    · have htokens := (length_text_lt_of_nextPlace? (Option.mem_toList.mp hnext)).1
      exact ⟨literal, rest, htokens⟩

/-- What a search needs of the places from which it starts: a token is left, and no `?` ends the
effect of the `*` in front of the tokens or of one among them. -/
structure SavePoint.Ready (point : SavePoint) : Prop where
  lasting : Lasting (.many :: point.tokens)
  ne_nil : point.tokens ≠ []

theorem ready_of_mem_saved {rule : CaseRule} {tokens : List Token} {free : Bool} {text : Text}
    {point : SavePoint} (hlasting : Lasting tokens)
    (h : point ∈ (attempt rule tokens free text).saved) : point.Ready := by
  obtain ⟨literal, rest, htokens⟩ := exists_literal_of_mem_saved h
  have hpoint : Lasting point.tokens := hlasting.of_suffix (length_text_lt_of_mem_saved h).1
  have hmany : Lasting (.many :: point.tokens) := by
    apply hpoint.many_cons
    rw [htokens]
    simp
  exact ⟨hmany, htokens ▸ List.cons_ne_nil _ _⟩

/-- **A search loses no match.** The invariant of a step of the search: if some place on the stack
leads to a match, then the attempt at the first place succeeds, or some place on the next stack
leads to a match. -/
theorem search_of_describes {rule : CaseRule} {points : List SavePoint}
    (hready : ∀ point ∈ points, point.Ready)
    (h : ∃ point ∈ points, Describes rule (.many :: point.tokens) point.text) :
    search rule points = true := by
  fun_induction search rule points with
  | case1 =>
    obtain ⟨point, hmem, -⟩ := h
    exact absurd hmem List.not_mem_nil
  | case2 point stack outcome ih =>
    obtain ⟨hfirst, hstack⟩ := List.forall_mem_cons.mp hready
    have hlasting : Lasting point.tokens := hfirst.lasting.of_suffix (List.suffix_cons _ _)
    -- The invariant is kept: the attempt saves only places that are ready.
    have hnext : ∀ later ∈ outcome.saved ++ stack, later.Ready := by
      intro later hlater
      rcases List.mem_append.mp hlater with hsaved | hlater
      · exact ready_of_mem_saved hlasting hsaved
      · exact hstack later hlater
    rw [Bool.or_eq_true]
    obtain ⟨later, hmem, hlater⟩ := h
    rcases List.mem_cons.mp hmem with rfl | hmem
    · -- The place that leads to a match is the first one: the attempt there loses no match.
      have hattempt : outcome.left = some [] ∨ _ :=
        exists_match_of_attempt hfirst.lasting (fun _ hnil => absurd hnil hfirst.ne_nil) hlater
      rcases hattempt with hdone | ⟨saved, hsaved, hdescribed⟩
      · exact Or.inl (Attempt.succeeded_iff.mpr hdone)
      · exact Or.inr (ih hnext ⟨saved, List.mem_append_left _ hsaved, hdescribed⟩)
    · exact Or.inr (ih hnext ⟨later, List.mem_append_right _ hmem, hlater⟩)

/-! ## The whole test -/

/-- Tokens accept what they describe, if no `?` ends the effect of a `*`. -/
theorem accepts_of_describes {rule : CaseRule} {tokens : List Token} {text : Text}
    (hlasting : Lasting tokens) (h : Describes rule tokens text) : Accepts rule tokens text := by
  have hlasting' : Lasting (behind false tokens) := hlasting
  rcases exists_match_of_attempt hlasting' (fun hfree => by simp at hfree) h with hdone | hsaved
  · exact Or.inl (Attempt.succeeded_iff.mpr hdone)
  · exact Or.inr (search_of_describes (fun point hmem => ready_of_mem_saved hlasting hmem) hsaved)

/-- **The matcher is complete** for patterns in which no `*` is directly followed by `?`. -/
theorem isMatch_of_describes {rule : CaseRule} {text pattern : Text}
    (hpattern : ¬ ['*', '?'] <:+: pattern) (h : Describes rule (tokens pattern) text) :
    isMatch rule text pattern = true :=
  isMatch_iff_accepts.mpr (accepts_of_describes (lasting_tokens hpattern) h)

/-- **The matcher decides the language of a pattern.** A name that matches is cut into pieces by
the tokens of the pattern, under any case policy. A name that is so cut matches, unless a `?` in
the pattern ends the effect of a `*` right before it. -/
theorem wildcardMatch_describes (style : Style) (policy : CasePolicy) (name pattern : Text) :
    (wildcardMatch (policy.rule style) (some name) (some pattern) = true →
      Describes (policy.rule style) (tokens pattern) name) ∧
    (¬ ['*', '?'] <:+: pattern → Describes (policy.rule style) (tokens pattern) name →
      wildcardMatch (policy.rule style) (some name) (some pattern) = true) :=
  ⟨describes_of_isMatch, isMatch_of_describes⟩

/-- A name that matches only at the second occurrence of the literal. -/
theorem wildcardMatch_second_occurrence :
    ¬ ['*', '?'] <:+: "*b?".toList ∧
    Describes .ignoring (tokens "*b?".toList) "abcBd".toList ∧
    wildcardMatch .ignoring (some "abcBd".toList) (some "*b?".toList) = true := by
  have hpattern : ¬ ['*', '?'] <:+: "*b?".toList := by decide
  have hdescribed : Describes .ignoring (tokens "*b?".toList) "abcBd".toList :=
    .many ['a', 'b', 'c'] (@Describes.literal _ _ _ ['B'] _ (by decide) (.one 'd' .nil))
  have hmatch : wildcardMatch .ignoring (some "abcBd".toList) (some "*b?".toList) = true :=
    (wildcardMatch_describes .windows .system _ _).2 hpattern hdescribed
  exact ⟨hpattern, (wildcardMatch_describes .windows .system _ _).1 hmatch, hmatch⟩

end Pathname.Glob
