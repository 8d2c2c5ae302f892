import Mathlib.Data.List.Destutter
import Pathname.Collapse
import Pathname.Segments

/-!
# The passes of a collapse

What each of the three passes over a buffer makes of it. The buffer is seen as a beginning and some
segments, each with a separator behind it. What a pass has left behind its index is a beginning at which
a new segment starts, and this is all that the test at an index needs to know of it: a segment is found
where it ends, and nowhere else (`endsAt_of_boundary`, `endsAt_eq_false`).

- `separators_of_separator`, `separators_of_plain`: empty segments are removed.
- `singleDots_eq`: the segments `.` are removed.
- `doubleDots_eq`: the other segments are read onto a stack.
-/

namespace Pathname.Collapse

variable {separator : Char} {start i k count : Nat} {before chars rest segment s : Text}
  {segments stack : List Text} {ended : Bool}

/-! ## Buffers of segments -/

/-- Segments, each with a separator behind it. -/
def terminated (separator : Char) (segments : List Text) : Text :=
  segments.flatMap fun segment => segment ++ [separator]

@[simp] theorem terminated_nil : terminated separator [] = [] := rfl

@[simp] theorem terminated_cons :
    terminated separator (s :: segments) = s ++ separator :: terminated separator segments := by
  simp [terminated]

@[simp] theorem terminated_append (first second : List Text) :
    terminated separator (first ++ second) =
      terminated separator first ++ terminated separator second := by
  simp [terminated]

theorem terminated_eq_nil_iff : terminated separator segments = [] ↔ segments = [] := by
  cases segments <;> simp

theorem cut_append (before gone rest : Text) :
    cut (before ++ (gone ++ rest)) before.length (before.length + gone.length) = before ++ rest := by
  rw [cut, List.take_left, ← List.append_assoc, ← List.length_append, List.drop_left]

/-- A loop that does the same from each of some indices as from the next one. -/
theorem eq_of_step {α : Type} {f : Nat → α} (hik : i ≤ k)
    (h : ∀ j, i ≤ j → j < k → f j = f (j + 1)) : f i = f k := by
  induction k, hik using Nat.le_induction with
  | base => rfl
  | succ k hik ih =>
    rw [ih fun j hij hjk => h j hij (by omega)]
    exact h k hik (by omega)

/-! ## Empty segments -/

/-- Two characters that may stand next to each other: not both are separators. -/
def Apart (separator a b : Char) : Prop := ¬ (a = separator ∧ b = separator)

instance (separator : Char) : DecidableRel (Apart separator) :=
  fun a b => inferInstanceAs (Decidable (¬ (a = separator ∧ b = separator)))

/-- The first pass goes on with what it has left last, and keeps only what may stand behind it. -/
theorem separators_eq (before : Text) (a : Char) (rest : Text) :
    separators separator (before ++ a :: rest) (before.length + 1) =
      before ++ rest.destutter' (Apart separator) a := by
  induction rest generalizing before a with
  | nil =>
    rw [separators, if_neg (by simp)]
    rfl
  | cons c rest ih =>
    have hfirst : (before ++ a :: c :: rest)[before.length + 1 - 1]? = some a := by simp
    have hsecond : (before ++ a :: c :: rest)[before.length + 1]? = some c := by simp
    rw [separators, if_pos (by simp), hfirst, hsecond]
    by_cases hapart : Apart separator a c
    · have hgo : separators separator (before ++ a :: c :: rest) (before.length + 1 + 1) =
          before ++ [a] ++ rest.destutter' (Apart separator) c := by
        simpa using ih (before ++ [a]) c
      rw [if_neg fun h => hapart ⟨Option.some.inj h.2.2, Option.some.inj h.2.1⟩, hgo,
        List.destutter'_cons_pos _ hapart, List.append_assoc]
      rfl
    · obtain ⟨rfl, rfl⟩ := not_not.mp hapart
      have hcut : cut (before ++ c :: c :: rest) (before.length + 1 - 1) (before.length + 1) =
          before ++ c :: rest := cut_append before [c] (c :: rest)
      rw [if_pos ⟨Nat.succ_ne_zero _, rfl, rfl⟩, hcut, ih, List.destutter'_cons_neg _ hapart]

/-- A segment is passed, unless it is empty and comes behind a separator. -/
theorem destutter'_append_cons {a : Char} (hs : separator ∉ s) (ha : a ≠ separator ∨ s ≠ [])
    (rest : Text) : (s ++ separator :: rest).destutter' (Apart separator) a =
      a :: (s ++ rest.destutter' (Apart separator) separator) := by
  induction s generalizing a with
  | nil =>
    have hapart : Apart separator a separator := fun h => by simp [h.1] at ha
    rw [List.nil_append, List.destutter'_cons_pos _ hapart, List.nil_append]
  | cons c s ih =>
    rw [List.mem_cons, not_or] at hs
    have hapart : Apart separator a c := fun h => hs.1 h.2.symm
    rw [List.cons_append, List.destutter'_cons_pos _ hapart, ih hs.2 (.inl (Ne.symm hs.1))]
    rfl

theorem destutter'_terminated (hsegments : ∀ s ∈ segments, separator ∉ s) :
    (terminated separator segments).destutter' (Apart separator) separator =
      separator :: terminated separator (segments.filter (· ≠ [])) := by
  induction segments with
  | nil => rfl
  | cons s segments ih =>
    obtain ⟨hs, hrest⟩ := List.forall_mem_cons.mp hsegments
    by_cases hempty : s = []
    · have hstutter : ¬ Apart separator separator separator := not_not.mpr ⟨rfl, rfl⟩
      subst hempty
      rw [terminated_cons, List.nil_append, List.destutter'_cons_neg _ hstutter, ih hrest]
      rfl
    · rw [terminated_cons, destutter'_append_cons hs (.inr hempty), ih hrest,
        List.filter_cons_of_pos (by simpa using hempty), terminated_cons]

/-- **The first pass removes the empty segments** behind a separator. -/
theorem separators_of_separator (before : Text) (hsegments : ∀ s ∈ segments, separator ∉ s) :
    separators separator (before ++ [separator] ++ terminated separator segments)
        (before.length + 1) =
      before ++ [separator] ++ terminated separator (segments.filter (· ≠ [])) := by
  have hpass : separators separator (before ++ separator :: terminated separator segments)
      (before.length + 1) = _ := separators_eq before separator _
  rw [destutter'_terminated hsegments] at hpass
  simpa using hpass

/-- Behind another character the first segment stays, even if it is empty. -/
theorem separators_of_plain (before : Text) {a : Char} (ha : a ≠ separator) (hs : separator ∉ s)
    (hsegments : ∀ s ∈ segments, separator ∉ s) :
    separators separator (before ++ a :: terminated separator (s :: segments)) (before.length + 1) =
      before ++ a :: terminated separator (s :: segments.filter (· ≠ [])) := by
  rw [separators_eq, terminated_cons, destutter'_append_cons hs (.inl ha),
    destutter'_terminated hsegments, terminated_cons]

/-! ## Where segments end -/

/-- A new segment starts behind `before`: at the beginning, or behind a separator. -/
def Boundary (separator : Char) (start : Nat) (before : Text) : Prop :=
  before.length = start ∨ start < before.length ∧ before.getLast? = some separator

theorem Boundary.start_le (h : Boundary separator start before) : start ≤ before.length := by
  rcases h with rfl | h
  · exact Nat.le_refl _
  · exact Nat.le_of_lt h.1

theorem boundary_append_separator (h : start ≤ before.length) :
    Boundary separator start (before ++ [separator]) :=
  .inr ⟨by simp only [List.length_append, List.length_singleton]; omega, List.getLast?_concat⟩

/-- Behind segments a new one starts. -/
theorem boundary_terminated (head : Text) (segments : List Text) :
    Boundary separator head.length (head ++ terminated separator segments) := by
  rcases List.eq_nil_or_concat segments with rfl | ⟨init, last, rfl⟩
  · simp [Boundary]
  · have hshape : head ++ terminated separator (init ++ [last]) =
        head ++ terminated separator init ++ last ++ [separator] := by
      simp
    rw [List.concat_eq_append, hshape]
    apply boundary_append_separator
    simp only [List.length_append]
    omega

/-- Segments that a pass can tell apart: none of them is empty or holds a separator. -/
def AreSegments (separator : Char) (segments : List Text) : Prop :=
  ∀ s ∈ segments, s ≠ [] ∧ separator ∉ s

theorem AreSegments.tail (h : AreSegments separator (s :: segments)) :
    AreSegments separator segments := fun other hother => h other (List.mem_cons_of_mem s hother)

theorem AreSegments.head?_ne (h : AreSegments separator segments) :
    (terminated separator segments).head? ≠ some separator := by
  cases segments with
  | nil => simp
  | cons s segments =>
    obtain ⟨hne, hplain⟩ := h s List.mem_cons_self
    obtain ⟨c, more, rfl⟩ := List.exists_cons_of_ne_nil hne
    intro hhead
    have hc : c = separator := by simpa using hhead
    exact hplain (hc ▸ List.mem_cons_self)

/-- A segment is found where it ends. -/
theorem endsAt_of_boundary (h : Boundary separator start before) (s : Text)
    (segments : List Text) :
    endsAt separator start s (before ++ terminated separator (s :: segments))
      (before.length + s.length) = true := by
  rw [terminated_cons]
  generalize terminated separator segments = rest
  have hseparator : (before ++ (s ++ separator :: rest))[before.length + s.length]? =
      some separator := by
    simp
  have htake : (before ++ (s ++ separator :: rest)).take (before.length + s.length) =
      before ++ s := by
    rw [← List.append_assoc, ← List.length_append, List.take_left]
  have hfront : before.length + s.length = start + s.length ∨
      (before ++ (s ++ separator :: rest))[before.length + s.length - (s.length + 1)]? =
        some separator := by
    rcases h with hlength | ⟨hlength, hlast⟩
    · exact .inl (by omega)
    · right
      have hindex : before.length + s.length - (s.length + 1) = before.length - 1 := by omega
      rw [hindex, List.getElem?_append_left (by omega), ← List.getLast?_eq_getElem?, hlast]
  simpa [endsAt, hseparator, htake] using hfront

/-- No segment is found before the end of a segment, nor right behind it, and at its end none but this
one is found. -/
theorem endsAt_eq_false (hbefore : Boundary separator start before)
    (hsegments : AreSegments separator (s :: segments)) (hsegment : separator ∉ segment)
    (hfirst : before.length ≤ i) (hlast : i ≤ before.length + s.length + 1)
    (hstart : start + segment.length ≤ i) (hne : i = before.length + s.length → s ≠ segment) :
    endsAt separator start segment (before ++ terminated separator (s :: segments)) i = false := by
  have hs := (hsegments s List.mem_cons_self).2
  have hrest := hsegments.tail.head?_ne
  obtain ⟨k, rfl⟩ := Nat.exists_eq_add_of_le hfirst
  rw [terminated_cons]
  generalize terminated separator segments = rest at hrest ⊢
  apply Bool.eq_false_iff.mpr
  intro hends
  simp only [endsAt, Bool.and_eq_true, beq_iff_eq, List.isSuffixOf_iff_suffix, Bool.or_eq_true,
    List.getElem?_append_right (Nat.le_add_right before.length k),
    Nat.add_sub_cancel_left] at hends
  obtain ⟨⟨hat, hsuffix⟩, hfront⟩ := hends
  -- There is but one separator in reach.
  obtain rfl : k = s.length := by
    rcases Nat.lt_trichotomy k s.length with hlt | heq | hgt
    · rw [List.getElem?_append_left hlt] at hat
      exact absurd (List.mem_of_getElem? hat) hs
    · exact heq
    · obtain rfl : k = s.length + 1 := by omega
      rw [List.getElem?_append_right (by omega), Nat.add_sub_cancel_left, List.getElem?_cons_succ,
        ← List.head?_eq_getElem?] at hat
      exact absurd hat hrest
  rw [← List.append_assoc, ← List.length_append, List.take_left] at hsuffix
  rcases Nat.lt_trichotomy segment.length s.length with hshort | hsame | hlong
  · -- A shorter one would need a separator within this segment.
    have hle := hbefore.start_le
    rcases hfront with hfront | hfront
    · omega
    · have hindex : before.length + s.length - (segment.length + 1) =
          before.length + (s.length - (segment.length + 1)) := by
        omega
      rw [hindex, List.getElem?_append_right (Nat.le_add_right _ _), Nat.add_sub_cancel_left,
        List.getElem?_append_left (by omega)] at hfront
      exact hs (List.mem_of_getElem? hfront)
  · have hsuffix' : s <:+ segment :=
      List.suffix_of_suffix_length_le (List.suffix_append before s) hsuffix (by omega)
    exact hne rfl (hsuffix'.eq_of_length hsame.symm)
  · -- A longer one would hold the separator before this segment.
    rcases hbefore with hlength | ⟨-, hlast⟩
    · omega
    · obtain ⟨init, rfl⟩ := List.getLast?_eq_some_iff.mp hlast
      have hwithin : separator :: s <:+ segment := by
        refine List.suffix_of_suffix_length_le ⟨init, by simp⟩ hsuffix ?_
        simp only [List.length_cons]
        omega
      exact hsegment (hwithin.subset List.mem_cons_self)

/-- The last separator of a buffer is the end of its last segment. -/
theorem eq_length_sub_one_iff (before s : Text) (segments : List Text) :
    (before.length + s.length ==
      (before ++ terminated separator (s :: segments)).length - 1) = segments.isEmpty := by
  cases segments with
  | nil => simp
  | cons other more =>
    simp
    omega

/-! ## Single dots -/

theorem singleDots_skip (h : endsAt separator start ['.'] chars i = false) :
    singleDots separator start chars i ended = singleDots separator start chars (i + 1) ended := by
  by_cases hi : i < chars.length
  · rw [singleDots, if_pos hi, h, if_neg Bool.false_ne_true]
  · rw [singleDots, if_neg hi, singleDots, if_neg (by omega)]

/-- **The second pass removes the segments `.`**, and tells whether the last segment was one. -/
theorem singleDots_eq (hdot : separator ≠ '.') (hbefore : Boundary separator start before)
    (hsegments : AreSegments separator segments) :
    singleDots separator start (before ++ terminated separator segments) (before.length + 1) ended =
      (before ++ terminated separator (segments.filter (· ≠ ['.'])),
        ended || segments.getLast? == some ['.']) := by
  have hsegment : separator ∉ ['.'] := by simpa using hdot
  -- The text before the index grows with every segment that stays, and is again one behind which a new
  -- segment starts.
  induction segments generalizing before ended with
  | nil =>
    rw [singleDots, if_neg (by simp)]
    simp
  | cons s segments ih =>
    by_cases hs : s = ['.']
    · subst hs
      have hlt : before.length + 1 < (before ++ terminated separator (['.'] :: segments)).length := by
        simp
      have hends : endsAt separator start ['.'] (before ++ terminated separator (['.'] :: segments))
          (before.length + 1) = true :=
        endsAt_of_boundary hbefore ['.'] segments
      have hcut : cut (before ++ terminated separator (['.'] :: segments)) (before.length + 1 - 1)
          (before.length + 1 + 1) = before ++ terminated separator segments :=
        cut_append before ['.', separator] _
      have hlast : (before.length + 1 ==
          (before ++ terminated separator (['.'] :: segments)).length - 1) = segments.isEmpty :=
        eq_length_sub_one_iff before ['.'] segments
      rw [singleDots, if_pos hlt, if_pos hends, hcut, hlast, ih hbefore hsegments.tail]
      cases segments <;> simp
    · -- Nothing is found in the segment and right behind it, where the next one starts.
      have hskip : singleDots separator start (before ++ terminated separator (s :: segments))
            (before.length + 1) ended =
          singleDots separator start (before ++ terminated separator (s :: segments))
            (before.length + s.length + 2) ended := by
        refine eq_of_step (f := fun i => singleDots _ _ _ i ended) (by omega) fun j hij hjk => ?_
        have hstart : start + ['.'].length ≤ j := by
          have := hbefore.start_le
          simp only [List.length_singleton]
          omega
        exact singleDots_skip
          (endsAt_eq_false hbefore hsegments hsegment (by omega) (by omega) hstart fun _ => hs)
      have hboundary : Boundary separator start (before ++ s ++ [separator]) := by
        apply boundary_append_separator
        have := hbefore.start_le
        simp only [List.length_append]
        omega
      have hgo := @ih _ ended hboundary hsegments.tail
      have hshape : before ++ s ++ [separator] ++ terminated separator segments =
          before ++ terminated separator (s :: segments) := by
        simp
      rw [hshape] at hgo
      simp only [List.length_append, List.length_singleton] at hgo
      rw [hskip, hgo]
      cases segments <;> simp [hs]

/-! ## Double dots -/

theorem doubleDots_skip (h : endsAt separator start ['.', '.'] chars i = false) :
    doubleDots separator start chars i ended = doubleDots separator start chars (i + 1) ended := by
  by_cases hi : i < chars.length
  · rw [doubleDots, if_pos hi, h, if_neg Bool.false_ne_true]
  · rw [doubleDots, if_neg hi, doubleDots, if_neg (by omega)]

/-- No separator is found where there is none. -/
theorem lastSeparatorAmong?_eq_none
    (h : ∀ j, start ≤ j → j < start + count → chars[j]? ≠ some separator) :
    lastSeparatorAmong? separator start chars count = none := by
  induction count with
  | zero => rfl
  | succ count ih =>
    rw [lastSeparatorAmong?, if_neg (h _ (by omega) (by omega))]
    exact ih fun j hj hlt => h j hj (by omega)

/-- A separator is found if none comes after it. -/
theorem lastSeparatorAmong?_eq_some (hk : k < count) (hat : chars[start + k]? = some separator)
    (h : ∀ j, start + k < j → j < start + count → chars[j]? ≠ some separator) :
    lastSeparatorAmong? separator start chars count = some (start + k) := by
  induction count with
  | zero => omega
  | succ count ih =>
    by_cases heq : k = count
    · subst heq
      rw [lastSeparatorAmong?, if_pos hat]
    · rw [lastSeparatorAmong?, if_neg (h _ (by omega) (by omega))]
      exact ih (by omega) fun j hj hlt => h j hj (by omega)

/-- The search for the segment before ends at the separator behind the segments below it, or at the
beginning if there are none. -/
theorem lastSeparatorAmong?_terminated (head : Text) (below : List Text) {top : Text}
    (htop : separator ∉ top) (rest : Text) :
    lastSeparatorAmong? separator head.length
        (head ++ terminated separator below ++ (top ++ separator :: rest))
        ((terminated separator below).length + top.length) =
      if below = [] then none else some ((head ++ terminated separator below).length - 1) := by
  have hnone : ∀ j, (head ++ terminated separator below).length ≤ j →
      j < head.length + ((terminated separator below).length + top.length) →
      (head ++ terminated separator below ++ (top ++ separator :: rest))[j]? ≠
        some separator := by
    intro j hj hlt hat
    rw [List.length_append] at hj
    rw [List.getElem?_append_right (by simpa using hj), List.getElem?_append_left
      (by simp only [List.length_append]; omega)] at hat
    exact htop (List.mem_of_getElem? hat)
  split
  · rename_i hempty
    subst hempty
    exact lastSeparatorAmong?_eq_none fun j hj hlt => hnone j (by simpa using hj) hlt
  · rename_i hne
    rcases @boundary_terminated separator head below with hlength | ⟨hlt, hlast⟩
    · simp [terminated_eq_nil_iff, hne] at hlength
    · have hlength : (head ++ terminated separator below).length - 1 =
          head.length + ((terminated separator below).length - 1) := by
        rw [List.length_append] at hlt ⊢
        omega
      rw [hlength]
      refine lastSeparatorAmong?_eq_some ?_ ?_ fun j hj hlt' => ?_
      · rw [List.length_append] at hlt
        omega
      · rw [← hlength, List.getElem?_append_left (by omega), ← List.getLast?_eq_getElem?, hlast]
      · exact hnone j (by omega) hlt'

/-- What the third pass has left behind its index: a beginning, and the segments of a stack. -/
def standing (separator : Char) (head : Text) (stack : List Text) : Text :=
  head ++ terminated separator stack.reverse

theorem standing_cons (head s : Text) (stack : List Text) :
    standing separator head (s :: stack) = standing separator head stack ++ (s ++ [separator]) := by
  simp [standing]

theorem length_standing_cons (head s : Text) (stack : List Text) :
    (standing separator head (s :: stack)).length =
      (standing separator head stack).length + s.length + 1 := by
  simp only [standing_cons, List.length_append, List.length_singleton]
  omega

theorem boundary_standing (head : Text) (stack : List Text) :
    Boundary separator head.length (standing separator head stack) :=
  boundary_terminated head stack.reverse

/-- An index from which the end of the next segment is reached: behind what is left, but not further
than the shortest segment `..` reaches. -/
structure InReach (separator : Char) (head : Text) (stack : List Text) (i : Nat) : Prop where
  /-- The index is behind what is left. -/
  behind : (standing separator head stack).length < i
  /-- It is not behind the end of a segment `..`. -/
  before_end : i ≤ (standing separator head stack).length + 2
  /-- A segment `..` fits in behind the beginning. -/
  fits : head.length + 2 ≤ i

/-- As long as the end of a segment `..` is not reached, nothing happens. -/
theorem doubleDots_walk (hdot : separator ≠ '.') (hsegments : AreSegments separator (s :: segments))
    {head : Text} {stop : Nat} (hreach : InReach separator head stack i) (hstop : i ≤ stop)
    (hlast : stop ≤ (standing separator head stack).length + s.length + 2)
    (hother : (standing separator head stack).length + s.length < stop → s ≠ ['.', '.']) :
    doubleDots separator head.length
        (standing separator head stack ++ terminated separator (s :: segments)) i ended =
      doubleDots separator head.length
        (standing separator head stack ++ terminated separator (s :: segments)) stop ended := by
  refine eq_of_step (f := fun i => doubleDots _ _ _ i ended) hstop fun j hij hjk => ?_
  have hbehind := hreach.behind
  have hfits : head.length + ['.', '.'].length ≤ j := Nat.le_trans hreach.fits hij
  exact doubleDots_skip (endsAt_eq_false (boundary_standing head stack) hsegments
    (by simpa using hdot) (by omega) (by omega) hfits fun hj => hother (by omega))

/-- A segment that stays is passed, and is on top of the stack from then on. -/
theorem doubleDots_pass (hdot : separator ≠ '.') (hsegments : AreSegments separator (s :: segments))
    {head : Text} (hreach : InReach separator head stack i) (hs : s ≠ ['.', '.']) :
    ∃ next, InReach separator head (s :: stack) next ∧
      doubleDots separator head.length
          (standing separator head stack ++ terminated separator (s :: segments)) i ended =
        doubleDots separator head.length
          (standing separator head (s :: stack) ++ terminated separator segments) next ended := by
  have hne : 0 < s.length := List.length_pos_iff.mpr (hsegments s List.mem_cons_self).1
  have hbehind := hreach.behind
  have hbefore := hreach.before_end
  have hfits := hreach.fits
  have hlength := @length_standing_cons separator head s stack
  refine ⟨(standing separator head stack).length + s.length + 2,
    ⟨by omega, by omega, by omega⟩, ?_⟩
  rw [doubleDots_walk hdot hsegments hreach (by omega) (Nat.le_refl _) fun _ => hs, standing_cons]
  simp

/-- A `..` with nothing on the stack ends the pass. -/
theorem doubleDots_climb (hdot : separator ≠ '.')
    (hsegments : AreSegments separator (['.', '.'] :: segments)) {head : Text}
    (hreach : InReach separator head [] i) :
    doubleDots separator head.length
      (standing separator head [] ++ terminated separator (['.', '.'] :: segments)) i ended =
        none := by
  have hlength : (standing separator head []).length = head.length := by simp [standing]
  have hends : endsAt separator head.length ['.', '.']
      (standing separator head [] ++ terminated separator (['.', '.'] :: segments))
      ((standing separator head []).length + 2) = true :=
    endsAt_of_boundary (boundary_standing head []) ['.', '.'] segments
  rw [doubleDots_walk hdot hsegments hreach hreach.before_end (by simp) (by simp), doubleDots,
    if_pos (by simp), if_pos hends, if_pos (by omega)]

/-- The top of a stack and the `..` behind it follow what is below the top. -/
theorem standing_cons_append (head top : Text) (stack segments : List Text) :
    standing separator head (top :: stack) ++ terminated separator (['.', '.'] :: segments) =
      standing separator head stack ++
        (top ++ separator :: (['.', '.', separator] ++ terminated separator segments)) := by
  simp [standing_cons]

/-- What is left without the top of a stack and the `..` behind it. -/
theorem cut_standing (head top : Text) (stack segments : List Text) :
    cut (standing separator head (top :: stack) ++ terminated separator (['.', '.'] :: segments))
        (standing separator head stack).length
        ((standing separator head (top :: stack)).length + 2 + 1) =
      standing separator head stack ++ terminated separator segments := by
  have hgone := cut_append (standing separator head stack) (top ++ [separator, '.', '.', separator])
    (terminated separator segments)
  have hstop : (standing separator head stack).length +
      (top ++ [separator, '.', '.', separator]).length =
        (standing separator head (top :: stack)).length + 2 + 1 := by
    simp only [length_standing_cons, List.length_append, List.length_cons, List.length_nil]
    omega
  rw [hstop] at hgone
  rw [standing_cons_append, ← hgone]
  simp

/-- The search at a `..` ends at the separator below the top of the stack, if there is one. -/
theorem lastSeparatorAmong?_standing (head : Text) {top : Text} (htop : separator ∉ top)
    (stack segments : List Text) :
    lastSeparatorAmong? separator head.length
        (standing separator head (top :: stack) ++ terminated separator (['.', '.'] :: segments))
        ((standing separator head (top :: stack)).length + 2 - 3 - head.length) =
      if stack = [] then none else some ((standing separator head stack).length - 1) := by
  have hcount : (standing separator head (top :: stack)).length + 2 - 3 - head.length =
      (terminated separator stack.reverse).length + top.length := by
    rw [length_standing_cons, standing, List.length_append]
    omega
  have hsearch := lastSeparatorAmong?_terminated head stack.reverse htop
    (['.', '.', separator] ++ terminated separator segments)
  rw [hcount, standing_cons_append]
  simpa [standing] using hsearch

/-- A `..` removes the top of the stack, and itself. -/
theorem doubleDots_cancel (hdot : separator ≠ '.') {top : Text}
    (hstack : AreSegments separator (top :: stack))
    (hsegments : AreSegments separator (['.', '.'] :: segments)) {head : Text}
    (hreach : InReach separator head (top :: stack) i) :
    ∃ next, InReach separator head stack next ∧
      doubleDots separator head.length (standing separator head (top :: stack) ++
          terminated separator (['.', '.'] :: segments)) i ended =
        doubleDots separator head.length
          (standing separator head stack ++ terminated separator segments) next
          (ended || segments.isEmpty) := by
  have hends : endsAt separator head.length ['.', '.'] (standing separator head (top :: stack) ++
      terminated separator (['.', '.'] :: segments))
      ((standing separator head (top :: stack)).length + 2) = true :=
    endsAt_of_boundary (boundary_standing head (top :: stack)) ['.', '.'] segments
  have hlast : ((standing separator head (top :: stack)).length + 2 ==
      (standing separator head (top :: stack) ++
        terminated separator (['.', '.'] :: segments)).length - 1) = segments.isEmpty :=
    eq_length_sub_one_iff _ ['.', '.'] segments
  have hlength := @length_standing_cons separator head top stack
  have hle : head.length ≤ (standing separator head stack).length :=
    (boundary_standing head stack).start_le
  have hfound := lastSeparatorAmong?_standing head (hstack top List.mem_cons_self).2 stack segments
  rw [doubleDots_walk hdot hsegments hreach hreach.before_end (by simp) (by simp), doubleDots,
    if_pos (by simp), if_pos hends, if_neg (by omega), hlast]
  split
  · rename_i j hj
    -- The segment before has a separator before it.
    rw [hfound] at hj
    split at hj
    · contradiction
    · rename_i hne
      have hlong : head.length < (standing separator head stack).length := by
        have hpositive : 0 < (terminated separator stack.reverse).length := by
          rw [List.length_pos_iff, ne_eq, terminated_eq_nil_iff, List.reverse_eq_nil_iff]
          exact hne
        rw [standing, List.length_append]
        omega
      have hj' : j + 1 = (standing separator head stack).length := by
        have := Option.some.inj hj
        omega
      rw [hj', cut_standing]
      exact ⟨j + 2, ⟨by omega, by omega, by omega⟩, rfl⟩
  · rename_i hj
    -- The segment before is the first one.
    rw [hfound] at hj
    split at hj
    · rename_i hempty
      subst hempty
      have hhead : (standing separator head []).length = head.length := by simp [standing]
      have hcut := @cut_standing separator head top [] segments
      rw [hhead] at hcut
      rw [hcut]
      exact ⟨head.length + 2, ⟨by omega, by omega, Nat.le_refl _⟩, rfl⟩
    · contradiction

/-- **The third pass reads the segments onto a stack.** -/
theorem doubleDots_eq (hdot : separator ≠ '.') {head : Text}
    (hstack : AreSegments separator stack) (hsegments : AreSegments separator segments)
    (hdots : ['.'] ∉ segments) (hreach : InReach separator head stack i) :
    doubleDots separator head.length
        (standing separator head stack ++ terminated separator segments) i ended =
      (Segments.resolve? stack segments).map fun next =>
        (standing separator head next, ended || segments.getLast? == some ['.', '.']) := by
  -- The index is not determined by the stack: behind a segment that was removed it is farther to the
  -- left than behind one that was passed.
  induction segments generalizing stack i ended with
  | nil =>
    rw [doubleDots, if_neg (by have := hreach.behind; simp; omega)]
    simp [Segments.resolve?]
  | cons s segments ih =>
    obtain ⟨hdot', hrest⟩ := not_or.mp (mt List.mem_cons.mpr hdots)
    by_cases hs : s = ['.', '.']
    · subst hs
      cases stack with
      | nil =>
        rw [doubleDots_climb hdot hsegments hreach]
        rfl
      | cons top below =>
        obtain ⟨next, hnext, hcancel⟩ := doubleDots_cancel hdot hstack hsegments hreach
        have hgo := @ih next below (ended || segments.isEmpty) hstack.tail hsegments.tail hrest hnext
        rw [hcancel, hgo]
        have hpush : Segments.push? (top :: below) ['.', '.'] = some below := rfl
        rw [Segments.resolve?, hpush]
        cases segments <;> simp
    · obtain ⟨next, hnext, hpass⟩ := doubleDots_pass hdot hsegments hreach hs
      have hpush : Segments.push? stack s = some (s :: stack) := by
        simp [Segments.push?, (hsegments s List.mem_cons_self).1, Ne.symm hdot', hs]
      have hlonger : AreSegments separator (s :: stack) :=
        List.forall_mem_cons.mpr ⟨hsegments s List.mem_cons_self, hstack⟩
      have hlast : (s == ['.', '.']) = false := beq_eq_false_iff_ne.mpr hs
      rw [hpass, ih hlonger hsegments.tail hrest hnext, Segments.resolve?, hpush]
      cases segments <;> simp [hlast]

end Pathname.Collapse
