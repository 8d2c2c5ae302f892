import Pathname.Root

/-!
# Collapsing a path in place

Another way to a normal form: the path is copied into a buffer with a separator at its end, and three
passes over the buffer remove from it what a normal form does not have. The first pass removes one of two
separators in a row, the second one the segments `.`, and the third one each `..` together with the
segment before it. A pass goes by index, and removes characters at and before its index.

## Contents

- `Collapse.cut`: what is left after a removal.
- `Collapse.separators`, `Collapse.singleDots`, `Collapse.doubleDots`: the three passes.
- `Collapse.buffer`, `Collapse.run`, `normalizeInPlace`: the buffer before and after them.
-/

namespace Pathname

namespace Collapse

variable (separator : Char) (start : Nat)

/-- A buffer without the characters from `first` on and before `stop`. -/
def cut (chars : Text) (first stop : Nat) : Text := chars.take first ++ chars.drop stop

theorem length_cut (chars : Text) (first stop : Nat) :
    (cut chars first stop).length = min first chars.length + (chars.length - stop) := by
  simp [cut]

/-! ## Separators -/

/-- Removes the first one of any two separators in a row, from index `i` on. Nothing stands before index
0, so a pass begins behind it. -/
def separators (chars : Text) (i : Nat) : Text :=
  if i < chars.length then
    if i ≠ 0 ∧ chars[i]? = some separator ∧ chars[i - 1]? = some separator then
      separators (cut chars (i - 1) i) i
    else separators chars (i + 1)
  else chars
termination_by chars.length - i
decreasing_by
  · rw [length_cut]
    omega
  · omega

/-! ## Segments -/

/-- Whether the separator at index `i` ends the given segment: the segment stands before the separator,
and before the segment there is another separator or the beginning. -/
def endsAt (segment chars : Text) (i : Nat) : Bool :=
  chars[i]? == some separator && segment.isSuffixOf (chars.take i) &&
    (i == start + segment.length || chars[i - (segment.length + 1)]? == some separator)

/-- Removes the segments `.`, from index `i` on. The answer says also whether the last segment of the
buffer was removed, or whether this is known before. -/
def singleDots (chars : Text) (i : Nat) (ended : Bool) : Text × Bool :=
  if i < chars.length then
    if endsAt separator start ['.'] chars i then
      singleDots (cut chars (i - 1) (i + 1)) i (ended || i == chars.length - 1)
    else singleDots chars (i + 1) ended
  else (chars, ended)
termination_by chars.length - i
decreasing_by
  · rw [length_cut]
    omega
  · omega

/-- The index of the last separator among the first `count` characters behind the beginning. -/
def lastSeparatorAmong? (chars : Text) : (count : Nat) → Option Nat
  | 0 => none
  | count + 1 =>
    if chars[start + count]? = some separator then some (start + count)
    else lastSeparatorAmong? chars count

variable {separator start} in
theorem lt_of_lastSeparatorAmong? {chars : Text} {count j : Nat}
    (h : lastSeparatorAmong? separator start chars count = some j) : j < start + count := by
  induction count with
  | zero => simp [lastSeparatorAmong?] at h
  | succ count ih =>
    unfold lastSeparatorAmong? at h
    split at h
    · obtain rfl := Option.some.inj h
      omega
    · have := ih h
      omega

/-- Removes the segments `..`, each together with the segment before it, from index `i` on. There is no
answer if there is a `..` without a segment before it. -/
def doubleDots (chars : Text) (i : Nat) (ended : Bool) : Option (Text × Bool) :=
  if i < chars.length then
    if endsAt separator start ['.', '.'] chars i then
      if i = start + 2 then none
      else
        -- The separator before the segment before; without one the segment is the first one.
        match _found : lastSeparatorAmong? separator start chars (i - 3 - start) with
        | some j =>
          doubleDots (cut chars (j + 1) (i + 1)) (j + 2) (ended || i == chars.length - 1)
        | none =>
          doubleDots (cut chars start (i + 1)) (start + 2) (ended || i == chars.length - 1)
    else doubleDots chars (i + 1) ended
  else some (chars, ended)
termination_by chars.length - i
decreasing_by
  · have := lt_of_lastSeparatorAmong? _found
    rw [length_cut]
    omega
  · rw [length_cut]
    omega
  · omega

/-! ## All passes -/

/-- The buffer of a text: one separator in place of both, and a separator at the end. -/
def buffer (separator : Separator) (t : Text) : Text :=
  let chars := separator.unify t
  if chars.getLast? = some separator.char then chars else chars ++ [separator.char]

/-- What the passes make of a text whose root has the length `start`. -/
def run (separator : Separator) (keepEnd : Bool) (start : Nat) (t : Text) : Option Text :=
  let chars := separators separator.char (buffer separator t) (if start = 0 then 1 else start)
  let (chars, dotAtEnd) := singleDots separator.char start chars (start + 1) false
  match doubleDots separator.char start chars (start + 2) false with
  | none => none
  | some (chars, dotsAtEnd) =>
    -- The separator that was put at the end is removed again, unless the text ends in a directory.
    let inDirectory := (separator.unify t).getLast? == some separator.char || dotAtEnd || dotsAtEnd
    if chars.length ≤ start ∨ inDirectory && keepEnd then some chars else some chars.dropLast

end Collapse

/-- The normal form of a text by way of the three passes. -/
def normalizeInPlace (style : Style) (separator : Separator) (keepEnd : Bool) (t : Text) :
    Except PathError (Option Text) := do
  let t ← rejectNul t
  if t.isEmpty then return some t
  let start ← Root.lengthOf style t
  return Collapse.run separator keepEnd start t

end Pathname
