import Pathname.Glob.Token

/-!
# Reading a pattern from left to right

The tokens of a pattern are defined from its end: a character is put in front of the tokens that
come after it. A pattern can also be gone through once from the left, with the characters that stand
for themselves held back until one comes that does not, and with the last character kept in mind, so
that the second `*` in a row adds nothing.

## Architecture

A scan that has come to some place owes the tokens of the rest to what it has so far (`Scan.resume`).
What it ends up with does not change from one character to the next (`Scan.resume_step`), so the
scan of the whole pattern ends up with the tokens of the whole pattern.

- `scan`: the way from the left.
- `scan_eq_tokens`: **the main statement**, both ways give the same tokens.
-/

namespace Pathname.Glob

/-! ## The scan -/

/-- How far a scan has come. -/
structure Scan where
  /-- The tokens that are complete. -/
  done : List Token
  /-- The characters that were read last, as far as they stand for themselves. -/
  buffer : Text
  /-- The last character that was read. -/
  previous : Option Char
  /-- Nothing is held back right behind a `*`. -/
  buffer_eq_nil : previous = some '*' → buffer = []

namespace Scan

/-- Nothing was read yet. -/
def start : Scan where
  done := []
  buffer := []
  previous := none
  buffer_eq_nil := by simp

/-- The complete tokens, and one more for the characters that are held back, if there are any. -/
def flushed (s : Scan) : List Token :=
  if s.buffer.isEmpty then s.done else s.done ++ [.literal s.buffer]

/-- Reads one character. -/
def step (s : Scan) (c : Char) : Scan :=
  if c = '?' then ⟨s.flushed ++ [.one], [], some c, by simp⟩
  else if h : c = '*' then
    if s.previous = some '*' then ⟨s.flushed, [], some c, by simp⟩
    else ⟨s.flushed ++ [.many], [], some c, by simp⟩
  else ⟨s.done, s.buffer ++ [c], some c, by simp [h]⟩

end Scan

/-- The tokens of a pattern, from left to right. A pattern without `?` and `*` is one literal. -/
def scan (pattern : Text) : List Token :=
  if '?' ∉ pattern ∧ '*' ∉ pattern then [.literal pattern]
  else (pattern.foldl Scan.step Scan.start).flushed

/-! ## What a scan ends up with -/

/-- Tokens without a `*` in front. -/
def dropMany : List Token → List Token
  | .many :: rest => rest
  | ts => ts

theorem addMany_eq (ts : List Token) : addMany ts = .many :: dropMany ts := by
  unfold addMany dropMany
  split <;> simp_all

theorem dropMany_addLiteral (c : Char) (ts : List Token) :
    dropMany (addLiteral c ts) = addLiteral c ts := by
  unfold addLiteral
  split <;> rfl

namespace Scan

variable {s : Scan}

/-- What a scan ends up with if it has the given tokens of the rest before it. A `*` among them that
comes next counts no more, if one was read last. -/
def resume (s : Scan) (ts : List Token) : List Token :=
  s.done ++ if s.previous = some '*' then dropMany ts else s.buffer.foldr addLiteral ts

theorem flushed_of_many (h : s.previous = some '*') : s.flushed = s.done := by
  simp [flushed, s.buffer_eq_nil h]

/-- Behind what is held back a token that is no literal begins afresh. -/
theorem flushed_append (s : Scan) (ts : List Token)
    (hts : ∀ text, ts.head? ≠ some (.literal text)) :
    s.flushed ++ ts = s.done ++ s.buffer.foldr addLiteral ts := by
  unfold flushed
  split
  · rename_i hempty
    simp [List.isEmpty_iff.mp hempty]
  · rename_i hne
    have hbuffer : s.buffer ≠ [] := by simpa using hne
    simp [foldr_addLiteral hbuffer hts]

/-- **A step changes nothing** of what the scan ends up with: the character moves from the rest to
what was read. -/
theorem resume_step (s : Scan) (c : Char) (rest : Text) :
    (s.step c).resume (read rest) = s.resume (read (c :: rest)) := by
  by_cases hone : c = '?'
  · subst hone
    have hflushed := s.flushed_append (.one :: read rest) (by simp)
    by_cases hprevious : s.previous = some '*'
    · simp [step, resume, read, hprevious, flushed_of_many, dropMany]
    · simpa [step, resume, read, hprevious] using hflushed
  · by_cases hmany : c = '*'
    · subst hmany
      have hflushed := s.flushed_append (.many :: dropMany (read rest)) (by simp)
      by_cases hprevious : s.previous = some '*'
      · -- The `*` is one more of a run, and adds nothing.
        simp [step, resume, read, hprevious, flushed_of_many, addMany_eq, dropMany]
      · simpa [step, resume, read, hprevious, addMany_eq] using hflushed
    · by_cases hprevious : s.previous = some '*'
      · simp [step, resume, read, hone, hmany, hprevious, s.buffer_eq_nil, dropMany_addLiteral]
      · simp [step, resume, read, hone, hmany, hprevious]

/-- At the end of the pattern what is held back is a literal. -/
theorem resume_nil (s : Scan) : s.resume [] = s.flushed := by
  by_cases hprevious : s.previous = some '*'
  · simp [resume, hprevious, flushed_of_many, dropMany]
  · have hflushed := s.flushed_append [] (by simp)
    simpa [resume, hprevious] using hflushed.symm

/-- **A run over the rest of a pattern** gives what the scan ends up with. -/
theorem flushed_foldl_step (s : Scan) (rest : Text) :
    (rest.foldl step s).flushed = s.resume (read rest) := by
  induction rest generalizing s with
  | nil => exact (resume_nil s).symm
  | cons c rest ih => rw [List.foldl_cons, ih, resume_step]

end Scan

/-- **Both ways to read a pattern give the same tokens.** -/
theorem scan_eq_tokens (pattern : Text) : scan pattern = tokens pattern := by
  unfold scan tokens
  split
  · rename_i hplain
    split
    · rename_i hempty
      rw [List.isEmpty_iff.mp hempty]
    · rename_i hne
      have hchars : ∀ c ∈ pattern, c ≠ '?' ∧ c ≠ '*' := fun c hc =>
        ⟨fun h => hplain.1 (h ▸ hc), fun h => hplain.2 (h ▸ hc)⟩
      exact (read_of_plain (by simpa using hne) hchars).symm
  · rename_i hspecial
    have hne : pattern ≠ [] := by
      rintro rfl
      simp at hspecial
    simp [hne, Scan.flushed_foldl_step, Scan.resume, Scan.start]

end Pathname.Glob
