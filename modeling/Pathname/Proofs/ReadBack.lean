import Pathname.Proofs.SegmentStack

/-!
# Written stacks are read back

A written stack that is cut at its separators and read onto a stack gives the stack back, and
ends in a mere step exactly if it was written with a separator at its end. No character but
separators gets into it from elsewhere than from the segments.

- `Segments.resolve?_pieces_write`, `Segments.endInStep_pieces_write`: the way back.
- `Segments.mem_of_mem_write`, `Segments.mem_of_mem_resolve?`: where the characters come from.
-/

namespace Pathname

namespace Text

/-- The characters of the pieces are those of the text that are not cut out. -/
theorem exists_mem_pieces_iff {cut : Char → Bool} {t : Text} {c : Char} :
    (∃ piece ∈ pieces cut t, c ∈ piece) ↔ c ∈ t ∧ cut c = false := by
  induction t with
  | nil => simp [pieces]
  | cons d rest ih =>
    cases hd : cut d with
    | true =>
      have hpieces : pieces cut (d :: rest) = [] :: pieces cut rest := by simp [pieces, hd]
      -- A character that is cut out adds an empty piece.
      have hne : cut c = false → c ≠ d := by
        rintro hc rfl
        simp [hc] at hd
      rw [hpieces]
      simp only [List.mem_cons, exists_eq_or_imp, List.not_mem_nil, false_or, ih]
      exact ⟨fun h => ⟨Or.inr h.1, h.2⟩, fun h => ⟨h.1.resolve_left (hne h.2), h.2⟩⟩
    | false =>
      -- Any other character goes into the first piece.
      cases hrest : pieces cut rest with
      | nil => exact absurd hrest (pieces_ne_nil cut rest)
      | cons first more =>
        have hpieces : pieces cut (d :: rest) = (d :: first) :: more := by
          simp [pieces, hd, hrest]
        rw [hrest] at ih
        simp only [List.mem_cons, exists_eq_or_imp] at ih
        rw [hpieces]
        simp only [List.mem_cons, exists_eq_or_imp, or_assoc, ih]
        constructor
        · rintro (rfl | h)
          · exact ⟨Or.inl rfl, hd⟩
          · exact ⟨Or.inr h.1, h.2⟩
        · rintro ⟨rfl | h, hc⟩
          · exact Or.inl rfl
          · exact Or.inr ⟨h, hc⟩

end Text

namespace Segments

variable {separator : Separator} {ended : Bool} {stack below next segments : List Text}

/-! ## The pieces of a written stack -/

theorem pieces_write (hne : stack ≠ []) (hstack : ∀ s ∈ stack, Stays s) :
    Text.pieces isSeparator (write separator ended stack) =
      stack.reverse ++ if ended then [[]] else [] := by
  have hreverse : stack.reverse ≠ [] := mt List.reverse_eq_nil_iff.mp hne
  have hplain : ∀ s ∈ stack.reverse, IsPlain s :=
    fun s hs => (hstack s (List.mem_reverse.mp hs)).plain
  have hglue := Text.pieces_intercalate (isSeparator_char separator) hreverse hplain
  have hempty : stack.isEmpty = false := List.isEmpty_eq_false_iff.mpr hne
  cases ended with
  | false => simpa [write] using hglue
  | true =>
    -- The separator at the end cuts off one more piece, an empty one.
    simp only [write, hempty, Bool.not_false, Bool.and_self, if_true]
    rw [Text.pieces_append_cut (isSeparator_char separator), hglue]
    rfl

/-! ## Reading the pieces -/

theorem push?_of_noStep {segment : Text} (h : Normal.isStep segment = false) :
    push? stack segment = some (segment :: stack) := by
  have hno := mt isStep_iff.mpr (Bool.eq_false_iff.mp h)
  rw [not_or, not_or] at hno
  unfold push?
  rw [if_neg (not_or.mpr ⟨hno.1, hno.2.1⟩), if_neg hno.2.2]

/-- Segments that stay are all put on the stack. -/
theorem resolve?_of_noStep (h : ∀ s ∈ segments, Normal.isStep s = false) :
    resolve? stack segments = some (segments.reverse ++ stack) := by
  induction segments generalizing stack with
  | nil => rfl
  | cons s rest ih =>
    have hs : Normal.isStep s = false := h s (List.mem_cons_self ..)
    have hrest : resolve? (s :: stack) rest = some (rest.reverse ++ s :: stack) :=
      ih fun r hr => h r (List.mem_cons_of_mem _ hr)
    rw [resolve?_cons rest (push?_of_noStep hs), hrest, List.reverse_cons, List.append_assoc]
    rfl

theorem resolve?_singleton_nil : resolve? stack [[]] = some stack := by
  simp [resolve?, push?]

theorem resolve?_pieces_write (hstack : ∀ s ∈ stack, Stays s) :
    resolve? below (Text.pieces isSeparator (write separator ended stack)) =
      some (stack ++ below) := by
  by_cases hne : stack = []
  · subst hne
    rw [write_nil]
    exact resolve?_singleton_nil
  · have hread : resolve? below stack.reverse = some (stack ++ below) := by
      rw [resolve?_of_noStep fun s hs => (hstack s (List.mem_reverse.mp hs)).noStep,
        List.reverse_reverse]
    rw [pieces_write hne hstack, resolve?_append, hread]
    cases ended with
    | false => rfl
    | true => exact resolve?_singleton_nil

theorem endInStep_append_singleton (segment : Text) :
    endInStep (segments ++ [segment]) = Normal.isStep segment := by
  simp [endInStep]

theorem endInStep_append (h : next ≠ []) : endInStep (segments ++ next) = endInStep next := by
  have hlast : next.getLast? = some (next.getLast h) := List.getLast?_eq_some_getLast h
  rw [endInStep, endInStep, List.getLast?_append, hlast, Option.some_or]

theorem endInStep_pieces_write (hstack : ∀ s ∈ stack, Stays s) :
    endInStep (Text.pieces isSeparator (write separator ended stack)) =
      (ended || stack.isEmpty) := by
  cases stack with
  | nil =>
    rw [write_nil, List.isEmpty_nil, Bool.or_true]
    rfl
  | cons top rest =>
    rw [pieces_write (List.cons_ne_nil top rest) hstack, List.isEmpty_cons, Bool.or_false]
    cases ended with
    | true => exact endInStep_append_singleton []
    | false =>
      -- The last piece is the top of the stack, which is no mere step.
      have htop := (hstack top (List.mem_cons_self ..)).noStep
      rw [List.reverse_cons, if_neg Bool.false_ne_true, List.append_nil,
        endInStep_append_singleton, htop]

/-- Segments that leave nothing on the stack end in a mere step. -/
theorem endInStep_of_resolve?_eq_nil (hne : segments ≠ [])
    (h : resolve? stack segments = some []) : endInStep segments = true := by
  obtain ⟨before, hsegments⟩ := List.getLast?_eq_some_iff.mp (List.getLast?_eq_some_getLast hne)
  generalize segments.getLast hne = last at hsegments
  rw [hsegments] at h ⊢
  rw [endInStep_append_singleton, isStep_iff]
  obtain ⟨mid, -, hlast⟩ := Option.bind_eq_some_iff.mp ((resolve?_append ..).symm.trans h)
  -- A last segment that stays would be on the stack.
  cases hpush : push? mid last with
  | none => simp [resolve?, hpush] at hlast
  | some top =>
    rw [resolve?_cons [] hpush, resolve?, Option.some.injEq] at hlast
    subst hlast
    rcases push?_cases hpush with ⟨hskip, -⟩ | ⟨hdots, -⟩ | ⟨-, hnil⟩
    · exact hskip.imp_right Or.inl
    · exact Or.inr (Or.inr hdots)
    · exact absurd hnil.symm (List.cons_ne_nil last mid)

/-! ## Characters -/

theorem mem_of_mem_resolve? (h : resolve? stack segments = some next) {s : Text}
    (hs : s ∈ next) : s ∈ stack ∨ s ∈ segments := by
  induction segments generalizing stack with
  | nil =>
    rw [resolve?, Option.some.injEq] at h
    exact Or.inl (h ▸ hs)
  | cons segment rest ih =>
    cases hpush : push? stack segment with
    | none => simp [resolve?, hpush] at h
    | some mid =>
      rw [resolve?_cons rest hpush] at h
      rcases ih h with hmid | hrest
      · -- Nothing but the segment itself is put on the stack.
        rcases push?_cases hpush with ⟨-, rfl⟩ | ⟨-, top, rfl⟩ | ⟨-, rfl⟩
        · exact Or.inl hmid
        · exact Or.inl (List.mem_cons_of_mem _ hmid)
        · rcases List.mem_cons.mp hmid with rfl | hstack
          · exact Or.inr (List.mem_cons_self ..)
          · exact Or.inl hstack
      · exact Or.inr (List.mem_cons_of_mem _ hrest)

theorem mem_of_mem_write (hstack : ∀ s ∈ stack, Stays s) {c : Char}
    (hc : c ∈ write separator ended stack) (hplain : isSeparator c = false) :
    ∃ s ∈ stack, c ∈ s := by
  obtain ⟨piece, hpiece, hmem⟩ := Text.exists_mem_pieces_iff.mpr ⟨hc, hplain⟩
  by_cases hne : stack = []
  · simp [hne] at hc
  · -- The piece behind a separator at the end is empty, all others are segments.
    rw [pieces_write hne hstack, List.mem_append, List.mem_reverse] at hpiece
    rcases hpiece with hpiece | hpiece
    · exact ⟨piece, hpiece, hmem⟩
    · cases ended <;> simp_all

end Segments

end Pathname
