import Pathname.CaseRule
import Pathname.Glob.Token

/-!
# Matching a text against a pattern

## Architecture

An **attempt** walks the tokens from left to right and never takes a choice back. After a `*` a
literal is sought and taken at its first occurrence; if it occurs again further on, the place of
the next occurrence is **saved**. When an attempt fails, the latest saved place is taken up: there
the walk goes on with the literal that was sought, as it does after a `*`.

A `?` ends the effect of a `*` before it: after `*?` a literal has to come at once.

## Contents

- `SavePoint`, `Attempt`, `attempt`: one walk.
- `search`: the attempts at the saved places. It ends, because every place that an attempt saves
  has less text left than the attempt had (`length_text_lt_of_mem_saved`), and an attempt saves
  at most one place for each token (`length_saved_le`).
- `isMatch`: the whole test.
-/

namespace Pathname.Glob

/-- A place at which a literal was seen to occur. -/
structure SavePoint where
  /-- The tokens that are left, the literal being the first. -/
  tokens : List Token
  /-- The text that is left, which begins with the literal. -/
  text : Text
  deriving DecidableEq, Repr

/-- The outcome of a walk over the tokens. -/
structure Attempt where
  /-- The text that is left after the last token; nothing if the walk got stuck. -/
  left : Option Text
  /-- The places that were saved on the way, the latest first. -/
  saved : List SavePoint
  deriving DecidableEq, Repr

/-! ## One attempt -/

/-- The place of the next occurrence of a literal behind the one at which `found` begins. -/
def nextPlace? (rule : CaseRule) (literal : Text) (rest : List Token) (found : Text) :
    Option SavePoint :=
  match found with
  | [] => none
  | _ :: behind => (rule.seek literal behind).map fun again => ⟨.literal literal :: rest, again⟩

/-- Walks tokens over a text. `free` says that a `*` comes right before the tokens. -/
def attempt (rule : CaseRule) : (tokens : List Token) → (free : Bool) → (text : Text) → Attempt
  | [], _, text => ⟨some text, []⟩
  | .one :: rest, _, text =>
    match text with
    | [] => ⟨none, []⟩
    | _ :: text => attempt rule rest false text
  -- A `*` at the end takes all that is left.
  | .many :: rest, _, text => attempt rule rest true (if rest.isEmpty then [] else text)
  -- Behind a `*` the literal may stand anywhere; the first place is taken, the next is saved.
  | .literal literal :: rest, true, text =>
    match rule.seek literal text with
    | none => ⟨none, []⟩
    | some found =>
      let further := attempt rule rest false (found.drop literal.length)
      ⟨further.left, further.saved ++ (nextPlace? rule literal rest found).toList⟩
  -- Elsewhere it has to come at once.
  | .literal literal :: rest, false, text =>
    if rule.beginsWith text literal then attempt rule rest false (text.drop literal.length)
    else ⟨none, []⟩

/-- Whether an attempt used up the whole text. -/
def Attempt.succeeded (outcome : Attempt) : Bool := outcome.left == some []

theorem Attempt.succeeded_iff {outcome : Attempt} :
    outcome.succeeded = true ↔ outcome.left = some [] := by
  simp [Attempt.succeeded]

/-! ## What an attempt saves -/

/-- The next place has less text left than the place before it. -/
theorem length_text_lt_of_nextPlace? {rule : CaseRule} {literal found : Text}
    {rest : List Token} {point : SavePoint} (h : nextPlace? rule literal rest found = some point) :
    point.tokens = .literal literal :: rest ∧ point.text.length < found.length := by
  cases found with
  | nil => simp [nextPlace?] at h
  | cons c behind =>
    obtain ⟨again, hseek, rfl⟩ := Option.map_eq_some_iff.1 h
    have := (CaseRule.suffix_of_seek hseek).length_le
    exact ⟨rfl, by simp only [List.length_cons]; omega⟩

/-- A saved place has tokens of the attempt left, and less text than the attempt. -/
theorem length_text_lt_of_mem_saved {rule : CaseRule} {tokens : List Token} {free : Bool}
    {text : Text} {point : SavePoint} (h : point ∈ (attempt rule tokens free text).saved) :
    point.tokens <:+ tokens ∧ point.text.length < text.length := by
  fun_induction attempt rule tokens free text with
  | case1 => simp at h
  | case2 => simp at h
  | case3 rest _ c text ih =>
    obtain ⟨htokens, htext⟩ := ih h
    exact ⟨htokens.trans (List.suffix_cons _ _), by simp only [List.length_cons]; omega⟩
  | case4 rest _ text ih =>
    obtain ⟨htokens, htext⟩ := ih h
    refine ⟨htokens.trans (List.suffix_cons _ _), ?_⟩
    split at htext
    · simp at htext
    · exact htext
  | case5 => simp at h
  | case6 literal rest text found hfound further ih =>
    have hle := (CaseRule.suffix_of_seek hfound).length_le
    rcases List.mem_append.1 h with hfurther | hnext
    · obtain ⟨htokens, htext⟩ := ih hfurther
      rw [List.length_drop] at htext
      exact ⟨htokens.trans (List.suffix_cons _ _), by omega⟩
    · obtain ⟨htokens, htext⟩ := length_text_lt_of_nextPlace? (Option.mem_toList.1 hnext)
      exact ⟨htokens ▸ List.suffix_refl _, by omega⟩
  | case7 literal rest text hbegins ih =>
    obtain ⟨htokens, htext⟩ := ih h
    rw [List.length_drop] at htext
    exact ⟨htokens.trans (List.suffix_cons _ _), by omega⟩
  | case8 => simp at h

theorem length_saved_le (rule : CaseRule) (tokens : List Token) (free : Bool) (text : Text) :
    (attempt rule tokens free text).saved.length ≤ tokens.length := by
  fun_induction attempt rule tokens free text with
  | case1 => simp
  | case2 => simp
  | case3 => simp only [List.length_cons]; omega
  | case4 => simp only [List.length_cons]; omega
  | case5 => simp
  | case6 literal rest text found hfound further ih =>
    have : (nextPlace? rule literal rest found).toList.length ≤ 1 := by
      cases nextPlace? rule literal rest found <;> simp
    simp only [List.length_append, List.length_cons, further]
    omega
  | case7 => simp only [List.length_cons]; omega
  | case8 => simp

/-! ## The weight of saved places -/

/-- The weight of a saved place: it exceeds the total of all places that an attempt there can
save. -/
def SavePoint.weight (point : SavePoint) : Nat :=
  Nat.pow (point.tokens.length + 1) point.text.length

/-- The total weight of saved places. -/
def weight : List SavePoint → Nat
  | [] => 0
  | point :: rest => point.weight + weight rest

/-- Places of bounded weight have a bounded total. -/
theorem weight_le_mul {points : List SavePoint} {bound : Nat}
    (h : ∀ point ∈ points, point.weight ≤ bound) : weight points ≤ points.length * bound := by
  induction points with
  | nil => simp [weight]
  | cons point rest ih =>
    have hpoint := h point List.mem_cons_self
    have hrest := ih fun q hq => h q (List.mem_cons_of_mem _ hq)
    simp only [weight, List.length_cons, Nat.succ_mul]
    omega

/-- An attempt at a place leaves places of less total weight behind. -/
theorem weight_saved_lt (rule : CaseRule) (free : Bool) (point : SavePoint) :
    weight (attempt rule point.tokens free point.text).saved < point.weight := by
  have hcount := length_saved_le rule point.tokens free point.text
  have hmem := fun q (hq : q ∈ (attempt rule point.tokens free point.text).saved) =>
    length_text_lt_of_mem_saved hq
  generalize (attempt rule point.tokens free point.text).saved = saved at hcount hmem
  cases htext : point.text.length with
  | zero =>
    -- No text is shorter than the empty one, so nothing was saved.
    have hnone : saved = [] :=
      List.eq_nil_iff_forall_not_mem.2 fun q hq => by have := (hmem q hq).2; omega
    simp [hnone, weight, SavePoint.weight, htext]
  | succ n =>
    -- Each saved place weighs at most this much, and there is at most one for each token.
    let bound := Nat.pow (point.tokens.length + 1) n
    have hbound : ∀ q ∈ saved, q.weight ≤ bound := fun q hq => by
      obtain ⟨htokens, hless⟩ := hmem q hq
      exact Nat.le_trans
        (Nat.pow_le_pow_left (Nat.add_le_add_right htokens.length_le 1) q.text.length)
        (Nat.pow_le_pow_right (Nat.succ_pos _) (by omega))
    have hpos : 0 < bound := Nat.pow_pos (Nat.succ_pos _)
    have htotal : weight saved ≤ point.tokens.length * bound :=
      Nat.le_trans (weight_le_mul hbound) (Nat.mul_le_mul_right _ hcount)
    have hweight : point.weight = point.tokens.length * bound + bound := by
      show Nat.pow _ _ = _
      rw [htext]
      show bound * (point.tokens.length + 1) = _
      rw [Nat.mul_comm, Nat.add_mul, Nat.one_mul]
    omega

theorem weight_append (a b : List SavePoint) : weight (a ++ b) = weight a + weight b := by
  induction a with
  | nil => simp [weight]
  | cons point rest ih => simp only [List.cons_append, weight, ih, Nat.add_assoc]

/-! ## The search -/

/-- Whether an attempt succeeds at one of the saved places, or at one that is saved on the way.
The places form a stack. -/
def search (rule : CaseRule) : List SavePoint → Bool
  | [] => false
  | point :: stack =>
    let outcome := attempt rule point.tokens true point.text
    outcome.succeeded || search rule (outcome.saved ++ stack)
termination_by points => weight points
decreasing_by
  have := weight_saved_lt rule true point
  rw [weight_append, weight]
  omega

/-- Whether a text matches a pattern. -/
def isMatch (rule : CaseRule) (text pattern : Text) : Bool :=
  let outcome := attempt rule (tokens pattern) false text
  outcome.succeeded || search rule outcome.saved

/-- Whether a name matches a pattern: an absent name matches an absent pattern, and nothing else
that is absent matches. -/
def wildcardMatch (rule : CaseRule) : (name pattern : Option Text) → Bool
  | none, none => true
  | some name, some pattern => isMatch rule name pattern
  | _, _ => false

end Pathname.Glob
