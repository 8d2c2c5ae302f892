/-!
# Texts

A path, a file name or a pattern is a list of characters, so every length and every position in
this library counts characters.

## Contents

- `Text`: the type.
- `Text.pieces`: what lies between the characters of a class; gluing the pieces with one such
  character is the way back (`Text.intercalate_pieces`, `Text.pieces_intercalate`).
- `Text.lastIndex?`: the position of the last character of a class.
-/

namespace Pathname

/-- A text is the list of its characters. -/
abbrev Text := List Char

namespace Text

/-! ## Cutting a text into pieces -/

/-- The pieces of a text between the characters of the class `cut`. There is always one more
piece than there are such characters, so the empty text has the one piece `[]`. -/
def pieces (cut : Char → Bool) : Text → List Text
  | [] => [[]]
  | c :: rest =>
    if cut c then [] :: pieces cut rest
    else
      match pieces cut rest with
      | [] => [[c]]
      | piece :: more => (c :: piece) :: more

theorem pieces_ne_nil (cut : Char → Bool) (t : Text) : pieces cut t ≠ [] := by
  cases t with
  | nil => simp [pieces]
  | cons c rest =>
    unfold pieces
    split
    · simp
    · split <;> simp

/-- No piece holds a character of the class. -/
theorem not_cut_of_mem_pieces {cut : Char → Bool} {t piece : Text} {c : Char}
    (hpiece : piece ∈ pieces cut t) (hc : c ∈ piece) : cut c = false := by
  induction t generalizing piece with
  | nil => simp_all [pieces]
  | cons d rest ih =>
    unfold pieces at hpiece
    split at hpiece
    · rcases List.mem_cons.1 hpiece with rfl | h
      · simp at hc
      · exact ih h hc
    · rename_i hd
      cases hrest : pieces cut rest with
      | nil => exact absurd hrest (pieces_ne_nil cut rest)
      | cons first more =>
        rw [hrest] at hpiece ih
        rcases List.mem_cons.1 hpiece with rfl | h
        · rcases List.mem_cons.1 hc with rfl | hc
          · simpa using hd
          · exact ih List.mem_cons_self hc
        · exact ih (List.mem_cons_of_mem _ h) hc

/-- A text without characters of the class is one piece. -/
theorem pieces_eq_singleton {cut : Char → Bool} {t : Text} (h : ∀ c ∈ t, cut c = false) :
    pieces cut t = [t] := by
  induction t with
  | nil => rfl
  | cons c rest ih =>
    have hrest := ih fun d hd => h d (List.mem_cons_of_mem _ hd)
    simp [pieces, h c List.mem_cons_self, hrest]

/-- The first piece ends at the first character of the class. -/
theorem pieces_append_cons {cut : Char → Bool} {first rest : Text} {c : Char}
    (hfirst : ∀ d ∈ first, cut d = false) (hc : cut c = true) :
    pieces cut (first ++ c :: rest) = first :: pieces cut rest := by
  induction first with
  | nil => simp [pieces, hc]
  | cons d more ih =>
    have hmore := ih fun e he => hfirst e (List.mem_cons_of_mem _ he)
    simp [pieces, hfirst d List.mem_cons_self, hmore]

/-- Gluing the pieces with a character that was cut out everywhere gives the text back. -/
theorem intercalate_pieces (d : Char) (t : Text) :
    [d].intercalate (pieces (· == d) t) = t := by
  induction t with
  | nil => rfl
  | cons c rest ih =>
    cases hrest : pieces (· == d) rest with
    | nil => exact absurd hrest (pieces_ne_nil _ rest)
    | cons first more =>
      rw [hrest] at ih
      unfold pieces
      split
      · rename_i hc
        rw [hrest, List.intercalate_cons_cons, ih]
        simp_all
      · rw [hrest]
        cases more <;> simp_all [List.intercalate, List.intersperse]

/-- Texts without characters of the class, glued with such a character, are the pieces again. -/
theorem pieces_intercalate {cut : Char → Bool} {d : Char} {ts : List Text} (hd : cut d = true)
    (hne : ts ≠ []) (h : ∀ t ∈ ts, ∀ c ∈ t, cut c = false) :
    pieces cut ([d].intercalate ts) = ts := by
  induction ts with
  | nil => exact absurd rfl hne
  | cons first more ih =>
    have hfirst : ∀ c ∈ first, cut c = false := h first List.mem_cons_self
    by_cases hmore : more = []
    · rw [hmore, List.intercalate_singleton, pieces_eq_singleton hfirst]
    · rw [List.intercalate_cons_of_ne_nil hmore, List.append_assoc, List.singleton_append,
        pieces_append_cons hfirst hd, ih hmore fun t ht => h t (List.mem_cons_of_mem _ ht)]

/-- Gluing two runs of texts puts the glue between them. -/
theorem intercalate_append {d : Text} {ts us : List Text} (hts : ts ≠ []) (hus : us ≠ []) :
    d.intercalate (ts ++ us) = d.intercalate ts ++ (d ++ d.intercalate us) := by
  induction ts with
  | nil => exact absurd rfl hts
  | cons first more ih =>
    rw [List.cons_append]
    by_cases hmore : more = []
    · rw [hmore, List.nil_append, List.intercalate_cons_of_ne_nil hus,
        List.intercalate_singleton, List.append_assoc]
    · rw [List.intercalate_cons_of_ne_nil (List.append_ne_nil_of_left_ne_nil hmore us), ih hmore,
        List.intercalate_cons_of_ne_nil hmore, List.append_assoc, List.append_assoc,
        List.append_assoc]

/-- Gluing one more text to some texts puts the glue and the text at the end. -/
theorem intercalate_concat {d t : Text} {ts : List Text} (h : ts ≠ []) :
    d.intercalate (ts ++ [t]) = d.intercalate ts ++ (d ++ t) := by
  rw [intercalate_append h (List.cons_ne_nil t []), List.intercalate_singleton]

/-! ## Positions -/

/-- The position of the last character for which `wanted` holds. -/
def lastIndex? (wanted : Char → Bool) : Text → Option Nat
  | [] => none
  | c :: rest =>
    match lastIndex? wanted rest with
    | some i => some (i + 1)
    | none => if wanted c then some 0 else none

/-- There is no last position exactly when no character is wanted. -/
theorem lastIndex?_eq_none_iff {wanted : Char → Bool} {t : Text} :
    lastIndex? wanted t = none ↔ ∀ c ∈ t, wanted c = false := by
  induction t with
  | nil => simp [lastIndex?]
  | cons c rest ih =>
    unfold lastIndex?
    cases h : lastIndex? wanted rest with
    | none => cases hc : wanted c <;> simp_all
    | some i =>
      simp only [reduceCtorEq, List.mem_cons, forall_eq_or_imp, false_iff, not_and]
      intro _ hall
      simp [ih.2 hall] at h

/-- The last position splits the text at a wanted character with no wanted character after it. -/
theorem eq_append_of_lastIndex? {wanted : Char → Bool} {t : Text} {i : Nat}
    (h : lastIndex? wanted t = some i) :
    ∃ before c after, t = before ++ c :: after ∧ before.length = i ∧ wanted c = true ∧
      ∀ x ∈ after, wanted x = false := by
  induction t generalizing i with
  | nil => simp [lastIndex?] at h
  | cons d rest ih =>
    unfold lastIndex? at h
    cases hrest : lastIndex? wanted rest with
    | some j =>
      simp only [hrest, Option.some.injEq] at h
      obtain ⟨before, c, after, rfl, rfl, hc, hafter⟩ := ih hrest
      exact ⟨d :: before, c, after, rfl, by simp [← h], hc, hafter⟩
    | none =>
      simp only [hrest] at h
      split at h
      · rename_i hd
        exact ⟨[], d, rest, rfl, by simpa using h, hd, lastIndex?_eq_none_iff.1 hrest⟩
      · simp at h

end Text

end Pathname
