import Mathlib.Algebra.Group.Nat.Defs
import Pathname.CasePolicy
import Pathname.Glob.Matcher
import Pathname.Proofs.FirstOccurrence

/-!
# The rounds of a search

The search for a match, told by indices: a walk counts the tokens and the characters that it has
passed, a place that it saves is a pair of these numbers, and the saved places form a stack, of which
each round but the first takes up the last one. A round may save several places, so the stack does not
get shorter, and no single number goes down from round to round. What a round saves comes later than
the place at which it began: behind its token, or at the same token and further on in the text.

## Architecture

- A walk saves occurrences of literals (`occursAt_of_mem_saved`) that come later than its beginning
  (`before_of_mem_saved`).
- It is an attempt of the matcher, the tokens and the text being dropped up to the indices
  (`walk_eq_attempt`). So the weight of the places that are left bounds the number of rounds
  (`verdictWithin_eq`).
- `search_ends`: **the main statement**.
-/

namespace Pathname.Glob

open CaseRule (indexOf? seek_of_indexOf? occursAt_of_indexOf? occursAt_natCast_iff
  add_length_le_of_occursAt map_drop_indexOf?)

variable {rule : CaseRule} {name : Text}

/-! ## One walk -/

/-- A place of a walk: the indices of the next token and of the next character. -/
structure Place where
  /-- The number of tokens before it. -/
  token : Nat
  /-- The number of characters before it. -/
  text : Nat
  deriving DecidableEq, Repr

/-- A place comes before another if it has fewer tokens before it, or as many tokens and fewer
characters. -/
def Place.Before (p q : Place) : Prop := p.token < q.token ∨ p.token = q.token ∧ p.text < q.text

/-- The outcome of a walk. -/
structure Walk where
  /-- Whether all tokens and the whole text were passed. -/
  matched : Bool
  /-- The places that were saved on the way, the latest first. -/
  saved : List Place
  deriving DecidableEq, Repr

/-- Walks the tokens that are left over a name, from the token number `k` and the character number
`t` on. `free` says that a `*` comes right before the tokens, or that the place was saved. -/
def walk (rule : CaseRule) (name : Text) :
    (rest : List Token) → (k : Nat) → (free : Bool) → (t : Nat) → Walk
  | [], _, _, t => ⟨t == name.length, []⟩
  | .one :: rest, k, _, t =>
    if name.length < t + 1 then ⟨false, []⟩ else walk rule name rest (k + 1) false (t + 1)
  -- A `*` at the end goes to the end of the name.
  | .many :: rest, k, _, t =>
    walk rule name rest (k + 1) true (if rest.isEmpty then name.length else t)
  -- Behind a `*` the literal is sought, and its next occurrence is saved.
  | .literal literal :: rest, k, true, t =>
    match rule.indexOf? name t literal with
    | none => ⟨false, []⟩
    | some found =>
      let further := walk rule name rest (k + 1) false (found + literal.length)
      let next := (rule.indexOf? name ↑(found + 1) literal).map (Place.mk k)
      ⟨further.matched, further.saved ++ next.toList⟩
  | .literal literal :: rest, k, false, t =>
    if rule.occursAt name t literal then walk rule name rest (k + 1) false (t + literal.length)
    else ⟨false, []⟩

/-- What comes later than the next token comes later. -/
theorem Place.Before.of_next_token {k t t' : Nat} {q : Place} (h : Place.Before ⟨k + 1, t'⟩ q) :
    Place.Before ⟨k, t⟩ q := by
  simp only [Place.Before] at h ⊢
  omega

/-- **What a walk saves comes later** than the place at which it began. Only at its first token can it
save the same token again, and then further on in the text. -/
theorem before_of_mem_saved {rest : List Token} {k t : Nat} {free : Bool} {q : Place}
    (h : q ∈ (walk rule name rest k free t).saved) : Place.Before ⟨k, t⟩ q := by
  fun_induction walk rule name rest k free t with
  | case1 | case2 | case5 | case8 => exact absurd h List.not_mem_nil
  | case3 _ _ _ _ _ ih | case4 _ _ _ _ ih | case7 _ _ _ _ _ ih => exact (ih h).of_next_token
  | case6 literal rest k t found hfound further next ih =>
    rcases List.mem_append.mp h with hfurther | hnext
    · exact (ih hfurther).of_next_token
    · obtain ⟨again, hagain, rfl⟩ := Option.map_eq_some_iff.mp (Option.mem_toList.mp hnext)
      have hfirst : t ≤ found := by simpa using (seek_of_indexOf? hfound).1
      have hnext : found + 1 ≤ again := by simpa using (seek_of_indexOf? hagain).1
      exact .inr ⟨rfl, by simp only; omega⟩

theorem drop_of_drop_eq_cons {ts rest : List Token} {token : Token} {k : Nat}
    (h : ts.drop k = token :: rest) : ts.drop (k + 1) = rest := by
  rw [← List.tail_drop, h, List.tail_cons]

/-- **A saved place is an occurrence of its literal.** -/
theorem occursAt_of_mem_saved {ts rest : List Token} {k t : Nat} {free : Bool} {q : Place}
    (hrest : ts.drop k = rest) (h : q ∈ (walk rule name rest k free t).saved) :
    ∃ literal, ts[q.token]? = some (.literal literal) ∧
      rule.occursAt name q.text literal = true := by
  fun_induction walk rule name rest k free t with
  | case1 | case2 | case5 | case8 => exact absurd h List.not_mem_nil
  | case3 _ _ _ _ _ ih | case4 _ _ _ _ ih | case7 _ _ _ _ _ ih =>
    exact ih (drop_of_drop_eq_cons hrest) h
  | case6 literal rest k t found hfound further next ih =>
    rcases List.mem_append.mp h with hfurther | hnext
    · exact ih (drop_of_drop_eq_cons hrest) hfurther
    · obtain ⟨again, hagain, rfl⟩ := Option.map_eq_some_iff.mp (Option.mem_toList.mp hnext)
      refine ⟨literal, ?_, (occursAt_of_indexOf? hagain).2⟩
      rw [← List.head?_drop, hrest, List.head?_cons]

/-! ## A walk is an attempt -/

/-- What is left of the tokens and the text from a place on. -/
def Place.point (ts : List Token) (name : Text) (place : Place) : SavePoint :=
  ⟨ts.drop place.token, name.drop place.text⟩

theorem nextPlace?_drop {literal : Text} {rest : List Token} {found : Nat}
    (hfound : found ≤ name.length) :
    nextPlace? rule literal rest (name.drop found) =
      (rule.indexOf? name ↑(found + 1) literal).map fun again =>
        ⟨.literal literal :: rest, name.drop again⟩ := by
  rcases Nat.lt_or_eq_of_le hfound with hlt | rfl
  · rw [List.drop_eq_getElem_cons hlt, nextPlace?, ← map_drop_indexOf? rule literal hlt,
      Option.map_map]
    rfl
  · simp [nextPlace?, indexOf?]

/-- **A walk is an attempt** on the tokens and the text that are left: it passes all of both exactly if
the attempt succeeds, and it saves the places at which what the attempt saves is left. -/
theorem walk_eq_attempt {ts rest : List Token} {k t : Nat} {free : Bool}
    (hrest : ts.drop k = rest) (ht : t ≤ name.length) :
    (walk rule name rest k free t).matched = (attempt rule rest free (name.drop t)).succeeded ∧
    (walk rule name rest k free t).saved.map (Place.point ts name) =
      (attempt rule rest free (name.drop t)).saved := by
  fun_induction walk rule name rest k free t with
  | case1 _ _ t =>
    -- The whole name is passed exactly if no text is left.
    have hend : t = name.length ↔ name.drop t = [] := by
      simp only [List.drop_eq_nil_iff]
      omega
    have hmatched : (t == name.length) = (some (name.drop t) == some []) := by
      rw [Bool.eq_iff_iff, beq_iff_eq, beq_iff_eq, hend, Option.some.injEq]
    exact ⟨hmatched, rfl⟩
  | case2 free rest k t hend =>
    have hdrop : name.drop t = [] := List.drop_eq_nil_of_le (by omega)
    simp [attempt, Attempt.succeeded, hdrop]
  | case3 free rest k t hend ih =>
    have hlt : t < name.length := by omega
    rw [List.drop_eq_getElem_cons hlt, attempt]
    exact ih (drop_of_drop_eq_cons hrest) hlt
  | case4 free rest k t ih =>
    have hdrop : name.drop (if rest.isEmpty then name.length else t) =
        if rest.isEmpty then [] else name.drop t := by
      split
      · exact List.drop_length
      · rfl
    have hlength : (if rest.isEmpty then name.length else t) ≤ name.length := by
      split
      · exact Nat.le_refl _
      · exact ht
    rw [attempt, ← hdrop]
    exact ih (drop_of_drop_eq_cons hrest) hlength
  | case5 literal rest k t hnone =>
    -- Either both find the literal or neither does.
    have hseek := map_drop_indexOf? rule literal ht
    rw [hnone] at hseek
    simp [attempt, Attempt.succeeded, ← hseek]
  | case6 literal rest k t found hfound further next ih =>
    have hseek := map_drop_indexOf? rule literal ht
    have hroom : found + literal.length ≤ name.length :=
      add_length_le_of_occursAt (occursAt_of_indexOf? hfound).2
    obtain ⟨hmatched, hsaved⟩ := ih (drop_of_drop_eq_cons hrest) hroom
    -- Both look for the next occurrence behind the beginning of this one.
    have hnext : (next.map (Place.point ts name)).toList =
        (nextPlace? rule literal rest (name.drop found)).toList := by
      rw [nextPlace?_drop (seek_of_indexOf? hfound).2.1, Option.map_map, ← hrest]
      rfl
    rw [hfound, Option.map_some] at hseek
    simp only [attempt, ← hseek, List.drop_drop]
    refine ⟨hmatched, ?_⟩
    rw [List.map_append, hsaved, ← Option.toList_map, hnext]
  | case7 literal rest k t hoccurs ih =>
    have hbegins := (occursAt_natCast_iff.mp hoccurs).2
    rw [attempt, if_pos hbegins, List.drop_drop]
    exact ih (drop_of_drop_eq_cons hrest) (add_length_le_of_occursAt hoccurs)
  | case8 literal rest k t hoccurs =>
    have hbegins : ¬ rule.beginsWith (name.drop t) literal = true :=
      fun h => hoccurs (occursAt_natCast_iff.mpr ⟨ht, h⟩)
    simp [attempt, Attempt.succeeded, hbegins]

/-! ## The rounds -/

/-- What a round of the search begins with. -/
structure Round where
  /-- The place from which the round walks on. -/
  place : Place
  /-- Whether the place was saved. -/
  free : Bool
  /-- The places that are saved for later rounds, the latest first. -/
  stack : List Place
  deriving DecidableEq, Repr

namespace Round

/-- The first round begins with the first token and the first character. -/
def first : Round := ⟨⟨0, 0⟩, false, []⟩

/-- The walk of a round. -/
def walk (rule : CaseRule) (ts : List Token) (name : Text) (round : Round) : Walk :=
  Glob.walk rule name (ts.drop round.place.token) round.place.token round.free round.place.text

/-- What a round leads to: a verdict, or the round that takes up the place that was saved last. -/
def next (rule : CaseRule) (ts : List Token) (name : Text) (round : Round) : Bool ⊕ Round :=
  if (round.walk rule ts name).matched then .inl true
  else
    match (round.walk rule ts name).saved ++ round.stack with
    | [] => .inl false
    | place :: stack => .inr ⟨place, true, stack⟩

/-- The verdict of a search, if it takes no more than a number of rounds. -/
def verdictWithin (rule : CaseRule) (ts : List Token) (name : Text) : Nat → Round → Option Bool
  | 0, _ => none
  | n + 1, round =>
    match round.next rule ts name with
    | .inl verdict => some verdict
    | .inr later => verdictWithin rule ts name n later

/-- The rounds of a search. -/
inductive Reached (rule : CaseRule) (ts : List Token) (name : Text) : Round → Prop where
  /-- The first round. -/
  | first : Reached rule ts name first
  /-- The round after a round. -/
  | next {round later : Round} :
      Reached rule ts name round → round.next rule ts name = .inr later → Reached rule ts name later

variable {ts : List Token} {round : Round}

/-! ## The number of rounds -/

/-- A round whose places lie in the name. -/
def InText (name : Text) (round : Round) : Prop :=
  ∀ place ∈ round.place :: round.stack, place.text ≤ name.length

/-- The weight of the places that a round begins with. -/
def weight (ts : List Token) (name : Text) (round : Round) : Nat :=
  Glob.weight ((round.place :: round.stack).map (Place.point ts name))

/-- The attempt of the matcher at the place of a round. -/
def attempt (rule : CaseRule) (ts : List Token) (name : Text) (round : Round) : Attempt :=
  Glob.attempt rule (ts.drop round.place.token) round.free (name.drop round.place.text)

theorem walk_eq_attempt (rule : CaseRule) (ts : List Token) (hround : round.InText name) :
    (round.walk rule ts name).matched = (round.attempt rule ts name).succeeded ∧
    (round.walk rule ts name).saved.map (Place.point ts name) =
      (round.attempt rule ts name).saved :=
  Glob.walk_eq_attempt rfl (hround round.place List.mem_cons_self)

/-- The places that are saved after a round lie in the name too. -/
theorem InText.of_saved {place : Place} {stack : List Place} (hround : round.InText name)
    (h : (round.walk rule ts name).saved ++ round.stack = place :: stack) :
    InText name ⟨place, true, stack⟩ := by
  intro other hother
  rw [← h] at hother
  rcases List.mem_append.mp hother with hsaved | hstack
  · obtain ⟨literal, -, hoccurs⟩ := occursAt_of_mem_saved rfl hsaved
    have := add_length_le_of_occursAt hoccurs
    omega
  · exact hround other (List.mem_cons_of_mem _ hstack)

/-- A round leaves places of less weight behind than it begins with. -/
theorem weight_saved_lt (rule : CaseRule) (ts : List Token) (hround : round.InText name) :
    Glob.weight (((round.walk rule ts name).saved ++ round.stack).map (Place.point ts name)) <
      round.weight ts name := by
  have hless : Glob.weight (round.attempt rule ts name).saved < (round.place.point ts name).weight :=
    Glob.weight_saved_lt rule round.free (round.place.point ts name)
  rw [List.map_append, (walk_eq_attempt rule ts hround).2, weight_append]
  simp only [weight, List.map_cons, Glob.weight]
  omega

/-- **The rounds are those of the matcher.** From a round on a search finds what the attempt at its
place finds, or the search at the places that are saved then. It takes no more rounds than the places
weigh with which the round begins. -/
theorem verdictWithin_eq {n : Nat} (hround : round.InText name) (hn : round.weight ts name ≤ n) :
    verdictWithin rule ts name n round =
      some ((round.attempt rule ts name).succeeded ||
        search rule ((round.attempt rule ts name).saved ++
          round.stack.map (Place.point ts name))) := by
  induction n generalizing round with
  | zero =>
    have := weight_saved_lt rule ts hround
    omega
  | succ n ih =>
    obtain ⟨hmatched, hsaved⟩ := walk_eq_attempt rule ts hround
    have hless := weight_saved_lt rule ts hround
    rw [← hmatched, ← hsaved, ← List.map_append, verdictWithin, next]
    by_cases hdone : (round.walk rule ts name).matched = true
    · simp [hdone]
    · cases hstack : (round.walk rule ts name).saved ++ round.stack with
      | nil => simp [hdone, search]
      | cons place stack =>
        -- The next round is one step of the search on the places that are saved.
        have hlater : InText name ⟨place, true, stack⟩ := hround.of_saved hstack
        have hweight : weight ts name ⟨place, true, stack⟩ < round.weight ts name := by
          rw [hstack] at hless
          exact hless
        have hstep := ih hlater (by omega)
        simp only [hdone, Bool.false_eq_true, ↓reduceIte, Bool.false_or]
        rw [List.map_cons, search]
        exact hstep

/-! ## What rounds save -/

/-- The empty pattern is one empty literal, which is not sought. -/
theorem saved_first_of_empty : (first.walk rule (tokens []) name).saved = [] := by
  simp only [walk, first, tokens, List.isEmpty_nil, ↓reduceIte, List.drop_zero, Glob.walk]
  split <;> rfl

theorem eq_first_of_reached_of_empty (h : Reached rule (tokens []) name round) :
    round = first := by
  induction h with
  | first => rfl
  | next _ hnext ih =>
    -- Nothing is saved for a second round.
    subst ih
    rw [next, saved_first_of_empty] at hnext
    split at hnext <;> simp [first] at hnext

/-- **What a search saves lies in the tokens and in the name**, before their ends. -/
theorem bounds_of_reached {pattern : Text} {q : Place}
    (h : Reached rule (tokens pattern) name round)
    (hq : q ∈ (round.walk rule (tokens pattern) name).saved) :
    q.token < (tokens pattern).length ∧ q.text < name.length := by
  -- An empty literal would occur at the end of the name too, so the empty pattern is apart.
  by_cases hpattern : pattern = []
  · subst hpattern
    rw [eq_first_of_reached_of_empty h, saved_first_of_empty] at hq
    exact absurd hq List.not_mem_nil
  · obtain ⟨literal, hliteral, hoccurs⟩ := occursAt_of_mem_saved rfl hq
    obtain ⟨htoken, hget⟩ := List.getElem?_eq_some_iff.mp hliteral
    have hmem : .literal literal ∈ read pattern := by
      simpa [tokens, hpattern] using List.mem_of_getElem? hliteral
    have hlength : 0 < literal.length := List.length_pos_iff.mpr (literal_ne_nil_of_mem_read hmem)
    have hroom := add_length_le_of_occursAt hoccurs
    exact ⟨htoken, by omega⟩

end Round

/-- **A search ends.** Under any case policy and for any name and pattern, a round saves only places
that come later than the one at which it begins, and all places that are saved lie before the end of
the tokens and of the name. The search reaches its verdict, which is that of the matcher, and the number
of rounds is at most a power: of the number of tokens and one more, to the length of the name. -/
theorem search_ends (style : Style) (policy : CasePolicy) (name pattern : Text) :
    (∀ round : Round, ∀ later ∈ (round.walk (policy.rule style) (tokens pattern) name).saved,
      round.place.Before later) ∧
    (∀ round, Round.Reached (policy.rule style) (tokens pattern) name round →
      ∀ later ∈ (round.walk (policy.rule style) (tokens pattern) name).saved,
        later.token < (tokens pattern).length ∧ later.text < name.length) ∧
    Round.first.verdictWithin (policy.rule style) (tokens pattern) name
        (((tokens pattern).length + 1) ^ name.length) =
      some (wildcardMatch (policy.rule style) (some name) (some pattern)) := by
  refine ⟨fun round later h => before_of_mem_saved h,
    fun round hround later h => Round.bounds_of_reached hround h, ?_⟩
  have hfirst : Round.first.InText name := by
    simp [Round.InText, Round.first]
  rw [Round.verdictWithin_eq hfirst]
  · simp [Round.attempt, Round.first, wildcardMatch, isMatch]
  · simp [Round.weight, Round.first, Glob.weight, SavePoint.weight, Place.point]

/-- The third round takes up the place that was saved first, and saves the next one for the same
token. All rounds fail. -/
theorem search_ends_without_match :
    let round : Round := ⟨⟨1, 1⟩, true, []⟩
    Round.Reached .exact (tokens "*a*a".toList) "aaab".toList round ∧
    ⟨1, 2⟩ ∈ (round.walk .exact (tokens "*a*a".toList) "aaab".toList).saved ∧
    round.place.Before ⟨1, 2⟩ ∧
    1 < (tokens "*a*a".toList).length ∧ 2 < "aaab".toList.length ∧
    Round.first.verdictWithin .exact (tokens "*a*a".toList) "aaab".toList 625 = some false := by
  intro round
  have hreached : Round.Reached .exact (tokens "*a*a".toList) "aaab".toList round :=
    .next (.next .first rfl) rfl
  have hsaved : ⟨1, 2⟩ ∈ (round.walk .exact (tokens "*a*a".toList) "aaab".toList).saved := by
    decide
  obtain ⟨hbefore, hbounds, hverdict⟩ :=
    search_ends .unix .sensitive "aaab".toList "*a*a".toList
  have hbound := hbounds round hreached _ hsaved
  have hfails : wildcardMatch .exact (some "aaab".toList) (some "*a*a".toList) = false := by
    decide +kernel
  exact ⟨hreached, hsaved, hbefore round _ hsaved, hbound.1, hbound.2, hfails ▸ hverdict⟩

end Pathname.Glob
