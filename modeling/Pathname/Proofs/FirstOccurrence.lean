import Mathlib.Data.Set.Basic
import Mathlib.Order.Bounds.Defs
import Pathname.CasePolicy
import Pathname.Proofs.CaseMatching

/-!
# The first occurrence of a token

A search for a token answers with a position, and a position says little: it has to be one at which
the token occurs, and there must be none before it. That it is found by going through the text from
the left can be told in two other ways. Where case matters, a slice of the text is compared with the
token. Where it does not, positions are counted up, and the count ends where the text has no room
for the token any more.

- `indexOf?_eq_some_iff`, `indexOf?_eq_none_iff`: the answer, by the occurrences.
- `indexBySlices?_eq`, `indexByCounting?_eq`: the two other ways answer the same.
- `indexOf?_isLeast`: **the main statement**.
-/

namespace Pathname.CaseRule

variable {rule : CaseRule} {text token : Text} {start : Int} {i j : Nat}

/-! ## Occurrences -/

/-- A token occurs where the rest of the text begins with it. The empty token occurs at the end of
the text too, but not behind it. -/
theorem occursAt_natCast_iff :
    rule.occursAt text i token = true ↔
      i ≤ text.length ∧ rule.beginsWith (text.drop i) token = true := by
  have hroom : rule.beginsWith (text.drop i) token = true →
      token.length ≤ text.length - i := by
    intro h
    simpa using length_le_of_beginsWith h
  simp only [occursAt, Bool.and_eq_true, decide_eq_true_eq, Int.toNat_natCast]
  constructor
  · rintro ⟨⟨-, hlast⟩, hbegins⟩
    exact ⟨by omega, hbegins⟩
  · rintro ⟨hi, hbegins⟩
    have := hroom hbegins
    exact ⟨⟨by omega, by omega⟩, hbegins⟩

/-- A token occurs only where the text has room for it. -/
theorem add_length_le_of_occursAt (h : rule.occursAt text i token = true) :
    i + token.length ≤ text.length := by
  simp only [occursAt, Bool.and_eq_true, decide_eq_true_eq] at h
  omega

/-- Where case matters, a token occurs where a slice of the text is the token. -/
theorem exact_occursAt_iff (hi : i ≤ text.length) :
    exact.occursAt text i token = true ↔ (text.drop i).take token.length = token := by
  simp only [occursAt_natCast_iff, hi, true_and, exact_beginsWith_iff]
  rw [List.prefix_iff_eq_take, eq_comm]

/-! ## What the search finds -/

/-- What is left from the position that was found is what was sought. -/
theorem seek_of_indexOf? (h : rule.indexOf? text start token = some i) :
    start.toNat ≤ i ∧ i ≤ text.length ∧
      rule.seek token (text.drop start.toNat) = some (text.drop i) := by
  unfold indexOf? at h
  split at h
  · contradiction
  · obtain ⟨found, hfound, hi⟩ := Option.map_eq_some_iff.mp h
    have hsuffix : found <:+ text.drop start.toNat := suffix_of_seek hfound
    have hlength : found.length ≤ text.length - start.toNat := by
      simpa using hsuffix.length_le
    have hdrop : found = text.drop (text.length - found.length) :=
      List.suffix_iff_eq_drop.mp (hsuffix.trans (List.drop_suffix _ _))
    rw [hi] at hdrop
    exact ⟨by omega, by omega, hdrop ▸ hfound⟩

theorem occursAt_of_indexOf? (h : rule.indexOf? text start token = some i) :
    start.toNat ≤ i ∧ rule.occursAt text i token = true := by
  obtain ⟨hstart, hlength, hseek⟩ := seek_of_indexOf? h
  exact ⟨hstart, occursAt_natCast_iff.mpr ⟨hlength, beginsWith_of_seek hseek⟩⟩

/-- A search by positions and a search that gives back what is left find the same. -/
theorem map_drop_indexOf? (rule : CaseRule) (token : Text) (hi : i ≤ text.length) :
    (rule.indexOf? text i token).map text.drop = rule.seek token (text.drop i) := by
  cases hsearch : rule.indexOf? text i token with
  | some found => exact (seek_of_indexOf? hsearch).2.2.symm
  | none =>
    unfold indexOf? at hsearch
    rw [Int.toNat_natCast, if_neg (Nat.not_lt.mpr hi), Option.map_eq_none_iff] at hsearch
    exact hsearch.symm

/-- **No occurrence is passed over.** Where a token occurs, a search that begins there or before
finds it there or before. -/
theorem exists_indexOf?_le (hj : start.toNat ≤ j) (hoccurs : rule.occursAt text j token = true) :
    ∃ i, rule.indexOf? text start token = some i ∧ i ≤ j := by
  obtain ⟨hlength, hbegins⟩ := occursAt_natCast_iff.mp hoccurs
  have hsuffix : text.drop j <:+ text.drop start.toNat := List.drop_suffix_drop_left text hj
  obtain ⟨found, hfound, hback⟩ := exists_seek_of_suffix hsuffix hbegins
  have hreach : text.length - j ≤ found.length := by
    simpa using hback.length_le
  refine ⟨text.length - found.length, ?_, by omega⟩
  unfold indexOf?
  simp only [hfound, Option.map_some]
  apply if_neg
  omega

/-- **The answer is the first occurrence.** -/
theorem indexOf?_eq_some_iff :
    rule.indexOf? text start token = some i ↔
      start.toNat ≤ i ∧ rule.occursAt text i token = true ∧
        ∀ j < i, start.toNat ≤ j → rule.occursAt text j token = false := by
  constructor
  · intro h
    obtain ⟨hstart, hoccurs⟩ := occursAt_of_indexOf? h
    refine ⟨hstart, hoccurs, fun j hlt hj => ?_⟩
    apply Bool.eq_false_iff.mpr
    intro hearlier
    -- An earlier occurrence would have been found instead.
    obtain ⟨first, hfirst, hle⟩ := exists_indexOf?_le hj hearlier
    obtain rfl : i = first := Option.some.inj (h.symm.trans hfirst)
    omega
  · rintro ⟨hstart, hoccurs, hnone⟩
    obtain ⟨first, hfirst, hle⟩ := exists_indexOf?_le hstart hoccurs
    obtain ⟨hstart', hoccurs'⟩ := occursAt_of_indexOf? hfirst
    rcases Nat.lt_or_eq_of_le hle with hlt | rfl
    · simp [hnone first hlt hstart'] at hoccurs'
    · exact hfirst

theorem indexOf?_eq_none_iff :
    rule.indexOf? text start token = none ↔
      ∀ j, start.toNat ≤ j → rule.occursAt text j token = false := by
  constructor
  · intro h j hj
    apply Bool.eq_false_iff.mpr
    intro hoccurs
    obtain ⟨i, hi, -⟩ := exists_indexOf?_le hj hoccurs
    simp [h] at hi
  · intro h
    cases hsearch : rule.indexOf? text start token with
    | none => rfl
    | some i =>
      obtain ⟨hstart, hoccurs⟩ := occursAt_of_indexOf? hsearch
      simp [h i hstart] at hoccurs

/-! ## Two other ways to search -/

/-- The first position from `start` on at which a slice of the text is the token. -/
def indexBySlices? (text : Text) (start : Nat) (token : Text) : Option Nat :=
  (List.range' start (text.length + 1 - start)).find? fun i =>
    (text.drop i).take token.length == token

/-- The first position at which a token occurs, among those from `start` on at which the text has
room for the token. -/
def indexByCounting? (rule : CaseRule) (text : Text) (start : Nat) (token : Text) : Option Nat :=
  (List.range' start (text.length + 1 - token.length - start)).find? fun i =>
    rule.occursAt text i token

/-- A search that is led by the case rule: slices are compared where case matters, and positions are
counted where it does not. A negative `start` stands for the beginning of the text. -/
def indexByRule? (rule : CaseRule) (text : Text) (start : Int) (token : Text) : Option Nat :=
  match rule with
  | exact => indexBySlices? text (max start 0).toNat token
  | ignoring => ignoring.indexByCounting? text (max start 0).toNat token

/-- A count of positions answers with the first occurrence, if it tries an occurrence where there is
one and leaves out no position with an occurrence. -/
theorem find?_eq_indexOf? {count : Nat} {tries : Nat → Bool}
    (htries : ∀ i : Nat, start.toNat ≤ i → i < start.toNat + count →
      tries i = rule.occursAt text i token)
    (hroom : ∀ i : Nat, rule.occursAt text i token = true → i < start.toNat + count) :
    (List.range' start.toNat count).find? tries = rule.indexOf? text start token := by
  apply Option.ext
  intro i
  simp only [List.find?_range'_eq_some, List.mem_range'_1, indexOf?_eq_some_iff,
    Bool.not_eq_true']
  constructor
  · rintro ⟨htry, ⟨hstart, hcount⟩, hnone⟩
    refine ⟨hstart, htries i hstart hcount ▸ htry, fun j hlt hj => ?_⟩
    rw [← htries j hj (by omega)]
    exact hnone j hj hlt
  · rintro ⟨hstart, hoccurs, hnone⟩
    have hcount := hroom i hoccurs
    refine ⟨(htries i hstart hcount).trans hoccurs, ⟨hstart, hcount⟩, fun j hj hlt => ?_⟩
    rw [htries j hj (by omega)]
    exact hnone j hlt hj

theorem indexBySlices?_eq (text : Text) (start : Int) (token : Text) :
    indexBySlices? text start.toNat token = exact.indexOf? text start token := by
  apply find?_eq_indexOf?
  · intro i _ hi
    rw [Bool.eq_iff_iff, beq_iff_eq, exact_occursAt_iff (by omega)]
  · intro i hoccurs
    have := add_length_le_of_occursAt hoccurs
    omega

theorem indexByCounting?_eq (rule : CaseRule) (text : Text) (start : Int) (token : Text) :
    rule.indexByCounting? text start.toNat token = rule.indexOf? text start token := by
  apply find?_eq_indexOf?
  · intros
    rfl
  · intro i hoccurs
    have := add_length_le_of_occursAt hoccurs
    omega

/-- Whichever way a rule leads, the answer is the same. -/
theorem indexByRule?_eq (rule : CaseRule) (text : Text) (start : Int) (token : Text) :
    rule.indexByRule? text start token = rule.indexOf? text start token := by
  have hstart : (max start 0).toNat = start.toNat := by omega
  cases rule with
  | exact => simp only [indexByRule?, hstart, indexBySlices?_eq]
  | ignoring => simp only [indexByRule?, hstart, indexByCounting?_eq]

/-! ## The least position -/

/-- The positions at which a token occurs, from `start` or from the beginning of the text on. -/
def occurrencesFrom (rule : CaseRule) (text : Text) (start : Int) (token : Text) : Set Int :=
  {i | max start 0 ≤ i ∧ rule.occursAt text i token = true}

/-- **A search answers with the least position at which the token occurs.** This holds under any case
policy and of any token, the empty one included. The search may begin before the text or behind it.
It has no answer exactly if there is no such position, and it is the search that the case rule leads. -/
theorem indexOf?_isLeast (style : Style) (policy : CasePolicy) (text token : Text) (start : Int) :
    (∀ i : Nat, (policy.rule style).indexOf? text start token = some i ↔
      IsLeast ((policy.rule style).occurrencesFrom text start token) i) ∧
    ((policy.rule style).indexOf? text start token = none ↔
      (policy.rule style).occurrencesFrom text start token = ∅) ∧
    (policy.rule style).indexByRule? text start token =
      (policy.rule style).indexOf? text start token := by
  refine ⟨fun i => ?_, ?_, indexByRule?_eq _ text start token⟩
  · rw [indexOf?_eq_some_iff]
    constructor
    · rintro ⟨hstart, hoccurs, hnone⟩
      refine ⟨⟨by omega, hoccurs⟩, ?_⟩
      rintro j ⟨hj, hoccurs'⟩
      -- No position before the first one of the text is a candidate.
      obtain ⟨j, rfl⟩ := Int.eq_ofNat_of_zero_le (show 0 ≤ j by omega)
      apply Int.not_lt.mp
      intro hlt
      simp [hnone j (by omega) (by omega)] at hoccurs'
    · rintro ⟨⟨hstart, hoccurs⟩, hleast⟩
      refine ⟨by omega, hoccurs, fun j hlt hj => ?_⟩
      apply Bool.eq_false_iff.mpr
      intro hearlier
      have := hleast ⟨show max start 0 ≤ (j : Int) by omega, hearlier⟩
      omega
  · rw [indexOf?_eq_none_iff, Set.eq_empty_iff_forall_notMem]
    constructor
    · rintro h j ⟨hj, hoccurs⟩
      obtain ⟨j, rfl⟩ := Int.eq_ofNat_of_zero_le (show 0 ≤ j by omega)
      simp [h j (by omega)] at hoccurs
    · intro h j hj
      apply Bool.eq_false_iff.mpr
      intro hoccurs
      exact h j ⟨by omega, hoccurs⟩

/-- The empty token occurs at the end of a text, and nowhere behind it. -/
example : ignoring.indexOf? "ab".toList 2 [] = some 2 ∧ ignoring.indexOf? "ab".toList 3 [] = none := by
  decide

end Pathname.CaseRule
