import Pathname.Segments

/-!
# The segment stack

Laws of the stack onto which the segments of a path are read, and of the text that a stack is
written as. They know nothing of roots.

- Reading is compositional: first some segments, then the others (`Segments.resolve?_append`).
- What lies below a stack is never touched by segments that get along without it
  (`Segments.resolve?_append_below`).
- Only segments that stay are ever on a stack (`Segments.stays_of_resolve?`), so a written stack
  begins with no separator and ends in one only if that was asked for.
-/

namespace Pathname

/-! ## Pieces around one cut -/

namespace Text

theorem pieces_append_cut {cut : Char → Bool} {c : Char} (hc : cut c = true)
    (before after : Text) :
    pieces cut (before ++ c :: after) = pieces cut before ++ pieces cut after := by
  induction before with
  | nil => simp [pieces, hc]
  | cons d rest ih =>
    cases hd : cut d with
    | true => simp [pieces, hd, ih]
    | false =>
      cases hrest : pieces cut rest with
      | nil => exact absurd hrest (pieces_ne_nil cut rest)
      | cons first more =>
        rw [hrest] at ih
        simp [pieces, hd, hrest, ih]

end Text

namespace Segments

/-! ## Segments that stay -/

/-- A segment stays on the stack if it is one segment and no mere step. -/
structure Stays (segment : Text) : Prop where
  plain : IsPlain segment
  noStep : Normal.isStep segment = false

theorem Stays.ne_nil {segment : Text} (h : Stays segment) : segment ≠ [] := by
  rintro rfl
  exact absurd h.noStep (by decide)

theorem isStep_iff {segment : Text} :
    Normal.isStep segment = true ↔ segment = [] ∨ segment = ['.'] ∨ segment = ['.', '.'] := by
  simp [Normal.isStep, or_assoc]

theorem endInStep_iff {segments : List Text} (h : segments ≠ []) :
    endInStep segments = true ↔ Normal.isStep (segments.getLastD []) = true := by
  have hlast : segments.getLast? = some (segments.getLast h) := List.getLast?_eq_some_getLast h
  simp [endInStep, List.getLastD_eq_getLast?, hlast]

/-- What one segment does to a stack: nothing, removing the top, or a new top. -/
theorem push?_cases {stack next : List Text} {segment : Text}
    (h : push? stack segment = some next) :
    (segment = [] ∨ segment = ['.']) ∧ next = stack ∨
      segment = ['.', '.'] ∧ (∃ top, stack = top :: next) ∨
      Normal.isStep segment = false ∧ next = segment :: stack := by
  unfold push? at h
  split at h
  · rename_i hskip
    exact Or.inl ⟨hskip, (Option.some.inj h).symm⟩
  · rename_i hskip
    split at h
    · rename_i hdots
      cases stack with
      | nil => exact absurd h (by simp)
      | cons top below => exact Or.inr (Or.inl ⟨hdots, top, by rw [← Option.some.inj h]⟩)
    · rename_i hdots
      refine Or.inr (Or.inr ⟨?_, (Option.some.inj h).symm⟩)
      rw [Bool.eq_false_iff]
      intro hstep
      rcases isStep_iff.mp hstep with hnil | hdot | hdotdot
      · exact hskip (Or.inl hnil)
      · exact hskip (Or.inr hdot)
      · exact hdots hdotdot

theorem push?_eq_none_iff {stack : List Text} {segment : Text} :
    push? stack segment = none ↔ segment = ['.', '.'] ∧ stack = [] := by
  unfold push?
  split
  · rename_i hskip
    constructor
    · intro h
      exact absurd h (by simp)
    · rintro ⟨rfl, -⟩
      contradiction
  · split
    · rename_i hdots
      cases stack <;> simp [hdots]
    · rename_i hdots
      simp [hdots]

/-! ## Reading is compositional -/

theorem resolve?_cons {stack next : List Text} {segment : Text} (rest : List Text)
    (h : push? stack segment = some next) :
    resolve? stack (segment :: rest) = resolve? next rest := by
  rw [resolve?, h]

theorem resolve?_append (stack first second : List Text) :
    resolve? stack (first ++ second) =
      (resolve? stack first).bind fun next => resolve? next second := by
  induction first generalizing stack with
  | nil => rfl
  | cons segment rest ih =>
    simp only [List.cons_append, resolve?]
    cases push? stack segment with
    | none => rfl
    | some next => exact ih next

theorem push?_append_below {stack next : List Text} {segment : Text} (below : List Text)
    (h : push? stack segment = some next) :
    push? (stack ++ below) segment = some (next ++ below) := by
  unfold push? at h ⊢
  split at h
  · rename_i hskip
    rw [if_pos hskip, ← Option.some.inj h]
  · rename_i hskip
    rw [if_neg hskip]
    split at h
    · rename_i hdots
      rw [if_pos hdots]
      cases stack with
      | nil => exact absurd h (by simp)
      | cons top rest => rw [← Option.some.inj h]; rfl
    · rename_i hdots
      rw [if_neg hdots, ← Option.some.inj h]
      rfl

/-- **Segments that need nothing below them leave it alone.** -/
theorem resolve?_append_below {stack next segments : List Text} (below : List Text)
    (h : resolve? stack segments = some next) :
    resolve? (stack ++ below) segments = some (next ++ below) := by
  -- Each step needs only the top of the stack, so it goes the same way on the longer one.
  induction segments generalizing stack with
  | nil =>
    rw [resolve?, Option.some.injEq] at h
    rw [resolve?, h]
  | cons segment rest ih =>
    rw [resolve?] at h
    cases hpush : push? stack segment with
    | none => simp [hpush] at h
    | some mid =>
      rw [hpush] at h
      rw [resolve?_cons rest (push?_append_below below hpush)]
      exact ih h

/-- Reading fails exactly where some `..` meets an empty stack. -/
theorem resolve?_eq_none_iff {stack segments : List Text} :
    resolve? stack segments = none ↔
      ∃ before after, segments = before ++ ['.', '.'] :: after ∧
        resolve? stack before = some [] := by
  constructor
  · intro h
    induction segments generalizing stack with
    | nil => exact absurd h (by simp [resolve?])
    | cons segment rest ih =>
      -- Either the first segment finds the stack empty, or a later one does.
      cases hpush : push? stack segment with
      | none =>
        obtain ⟨rfl, rfl⟩ := push?_eq_none_iff.mp hpush
        exact ⟨[], rest, rfl, rfl⟩
      | some next =>
        rw [resolve?_cons rest hpush] at h
        obtain ⟨before, after, rfl, hbefore⟩ := ih h
        exact ⟨segment :: before, after, rfl, by rw [resolve?_cons before hpush, hbefore]⟩
  · rintro ⟨before, after, rfl, hbefore⟩
    rw [resolve?_append, hbefore]
    rfl

/-- Reading plain segments leaves segments that stay on the stack, and no others. -/
theorem stays_of_resolve? {stack next segments : List Text} (hstack : ∀ s ∈ stack, Stays s)
    (hsegments : ∀ s ∈ segments, IsPlain s) (h : resolve? stack segments = some next) :
    ∀ s ∈ next, Stays s := by
  induction segments generalizing stack with
  | nil =>
    rw [resolve?, Option.some.injEq] at h
    exact h ▸ hstack
  | cons segment rest ih =>
    cases hpush : push? stack segment with
    | none => simp [resolve?, hpush] at h
    | some mid =>
      rw [resolve?_cons rest hpush] at h
      refine ih ?_ (fun s hs => hsegments s (List.mem_cons_of_mem _ hs)) h
      -- The invariant of one step: the new stack, too, holds only segments that stay.
      rcases push?_cases hpush with ⟨-, rfl⟩ | ⟨-, top, rfl⟩ | ⟨hno, rfl⟩
      · exact hstack
      · exact fun s hs => hstack s (List.mem_cons_of_mem _ hs)
      · intro s hs
        rcases List.mem_cons.mp hs with rfl | hs
        · exact ⟨hsegments s (List.mem_cons_self ..), hno⟩
        · exact hstack s hs

theorem isPlain_of_mem_ofText {root : Root} {t segment : Text} (h : segment ∈ ofText root t) :
    IsPlain segment :=
  fun _ hc => Text.not_cut_of_mem_pieces h hc

theorem stays_of_mem_stack {root : Root} {t : Text} {stack : List Text}
    (h : resolve? [] (ofText root t) = some stack) : ∀ s ∈ stack, Stays s :=
  stays_of_resolve? (fun _ hs => absurd hs List.not_mem_nil)
    (fun _ hs => isPlain_of_mem_ofText hs) h

/-! ## Written stacks -/

@[simp] theorem write_nil (separator : Separator) (ended : Bool) :
    write separator ended [] = [] := by
  simp [write]

theorem write_cons (separator : Separator) (ended : Bool) (top : Text) (below : List Text) :
    write separator ended (top :: below) =
      [separator.char].intercalate (below.reverse ++ [top]) ++
        if ended then [separator.char] else [] := by
  simp [write]

/-- A written stack is completed by a separator exactly if the end is to be kept, there is a
segment, and the last of the segments that were read is a mere step. -/
theorem write_eq {separator : Separator} {keepEnd : Bool} {segments stack : List Text}
    (h : segments ≠ []) :
    write separator (keepEnd && endInStep segments) stack =
      [separator.char].intercalate stack.reverse ++
        if keepEnd = true ∧ stack ≠ [] ∧ segments.getLastD [] ∈ [[], ['.'], ['.', '.']]
          then [separator.char] else [] := by
  have hstep : endInStep segments = true ↔ segments.getLastD [] ∈ [[], ['.'], ['.', '.']] := by
    rw [endInStep_iff h, isStep_iff]
    simp
  have hend : (if (keepEnd && endInStep segments) && !stack.isEmpty then [separator.char] else []) =
      if keepEnd = true ∧ stack ≠ [] ∧ segments.getLastD [] ∈ [[], ['.'], ['.', '.']]
        then [separator.char] else [] := by
    refine ite_congr (propext ?_) (fun _ => rfl) (fun _ => rfl)
    rw [Bool.and_eq_true, Bool.and_eq_true, hstep, Bool.not_eq_true', List.isEmpty_eq_false_iff]
    exact ⟨fun h => ⟨h.1.1, h.2, h.1.2⟩, fun h => ⟨⟨h.1, h.2.2⟩, h.2.1⟩⟩
  rw [write, hend]

/-- A stack on top of another one is written behind it. -/
theorem write_append {separator : Separator} {ended : Bool} {upper lower : List Text}
    (hupper : upper ≠ []) (hlower : lower ≠ []) :
    write separator ended (upper ++ lower) =
      write separator false lower ++ separator.char :: write separator ended upper := by
  have hglue : [separator.char].intercalate (lower.reverse ++ upper.reverse) =
      [separator.char].intercalate lower.reverse ++
        ([separator.char] ++ [separator.char].intercalate upper.reverse) :=
    Text.intercalate_append (by simpa using hlower) (by simpa using hupper)
  simp [write, hglue, hupper]

/-- A text that is written from a stack with a segment that stays at its bottom begins with the
first character of that segment. -/
theorem write_eq_cons (separator : Separator) (ended : Bool) {stack : List Text}
    (hstack : ∀ s ∈ stack, Stays s) (hne : stack ≠ []) :
    ∃ c rest, write separator ended stack = c :: rest ∧ isSeparator c = false := by
  -- The bottom of the stack is written first, and it is not empty.
  obtain ⟨bottom, upper, hrev⟩ := List.exists_cons_of_ne_nil (mt List.reverse_eq_nil_iff.mp hne)
  have hbottom : Stays bottom := hstack bottom (by
    rw [← List.mem_reverse, hrev]
    exact List.mem_cons_self ..)
  cases bottom with
  | nil => exact absurd rfl hbottom.ne_nil
  | cons c more =>
    have hc : isSeparator c = false := hbottom.plain c (List.mem_cons_self ..)
    cases upper with
    | nil => exact ⟨c, _, by rw [write, hrev]; rfl, hc⟩
    | cons s rest => exact ⟨c, _, by rw [write, hrev, List.intercalate_cons_cons]; rfl, hc⟩

theorem write_ne_nil (separator : Separator) (ended : Bool) {stack : List Text}
    (hstack : ∀ s ∈ stack, Stays s) (hne : stack ≠ []) : write separator ended stack ≠ [] := by
  obtain ⟨c, rest, hwrite, -⟩ := write_eq_cons separator ended hstack hne
  rw [hwrite]
  exact List.cons_ne_nil c rest

theorem not_isSeparator_of_head?_write {separator : Separator} {ended : Bool} {stack : List Text}
    (hstack : ∀ s ∈ stack, Stays s) {c : Char}
    (hc : (write separator ended stack).head? = some c) : isSeparator c = false := by
  by_cases hne : stack = []
  · subst hne
    simp at hc
  · obtain ⟨d, rest, hwrite, hd⟩ :=
      write_eq_cons separator ended hstack hne
    rw [hwrite, List.head?_cons, Option.some.injEq] at hc
    exact hc ▸ hd

theorem getLast?_write {separator : Separator} {top : Text} (htop : top ≠ []) (below : List Text) :
    (write separator false (top :: below)).getLast? = top.getLast? := by
  rw [write_cons, if_neg Bool.false_ne_true, List.append_nil]
  by_cases hbelow : below.reverse = []
  · rw [hbelow, List.nil_append, List.intercalate_singleton]
  · have hlast : top.getLast? = some (top.getLast htop) := List.getLast?_eq_some_getLast htop
    rw [Text.intercalate_concat hbelow, List.getLast?_append, List.getLast?_append, hlast]
    rfl

end Segments

end Pathname
