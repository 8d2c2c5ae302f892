/-!
# Ranges of code points

A property of characters is given by the closed ranges of the code points that have it, in
ascending order. Looking a character up can then stop at the first range that ends at or after
it.

## Contents

- `CodeRange`, `CodeRange.covers`: the look-up.
- `CodeRange.covers_iff`: it accepts just the code points that lie in a range of the table.
-/

namespace Pathname.Unicode

/-- The code points from `first` to `last`, both included. -/
structure CodeRange where
  /-- The least code point of the range. -/
  first : Nat
  /-- The greatest code point of the range. -/
  last : Nat
  deriving DecidableEq, Repr

namespace CodeRange

/-- Whether one of the ranges, which stand in ascending order, holds the code point. -/
def covers : List CodeRange → Nat → Bool
  | [], _ => false
  | range :: rest, n =>
    if n < range.first then false
    else if n ≤ range.last then true
    else covers rest n

/-- Whether ranges stand in ascending order, without a common code point and from `least` on. -/
def ascendingFrom (least : Nat) : List CodeRange → Bool
  | [] => true
  | range :: rest =>
    decide (least ≤ range.first) && decide (range.first ≤ range.last) &&
      ascendingFrom (range.last + 1) rest

/-- Ascending ranges begin where they have to, or later. -/
theorem least_le_of_mem {least : Nat} {table : List CodeRange} {range : CodeRange}
    (h : ascendingFrom least table = true) (hmem : range ∈ table) : least ≤ range.first := by
  induction table generalizing least with
  | nil => simp at hmem
  | cons first rest ih =>
    simp only [ascendingFrom, Bool.and_eq_true, decide_eq_true_eq] at h
    obtain ⟨⟨hleast, hfirst⟩, hrest⟩ := h
    rcases List.mem_cons.1 hmem with rfl | hmem
    · exact hleast
    · have := ih hrest hmem
      omega

/-- The look-up is right: it accepts the code points that lie in a range of the table. -/
theorem covers_iff {least : Nat} {table : List CodeRange} (h : ascendingFrom least table = true)
    (n : Nat) : covers table n = true ↔ ∃ range ∈ table, range.first ≤ n ∧ n ≤ range.last := by
  induction table generalizing least with
  | nil => simp [covers]
  | cons range rest ih =>
    simp only [ascendingFrom, Bool.and_eq_true, decide_eq_true_eq] at h
    have hlater : ∀ other ∈ rest, range.last + 1 ≤ other.first :=
      fun other hother => least_le_of_mem h.2 hother
    simp only [List.mem_cons, exists_eq_or_imp]
    unfold covers
    split
    · -- Before the first range there is nothing.
      simp only [Bool.false_eq_true, false_iff]
      rintro (hhere | ⟨other, hother, hbounds⟩)
      · omega
      · have := hlater other hother
        omega
    · split
      · simp only [true_iff]
        exact Or.inl ⟨by omega, by omega⟩
      · rw [ih h.2]
        constructor
        · exact Or.inr
        · rintro (hhere | hrest)
          · omega
          · exact hrest

end CodeRange

end Pathname.Unicode
