import Pathname.Host

/-!
# The grammar of host names

A host name is tested label by label, where only the last label may be empty. Here it is read as
what it is: labels that are not empty, glued by dots, and one more dot at the end if one likes.

- `Host.RegisteredName.IsName`: the grammar.
- `Host.isRegisteredName_iff`: the test accepts exactly the grammar, but for the empty text.
- `Host.isValid_iff`: what may name a server.
-/

namespace Pathname.Host

variable {t label : Text}

namespace RegisteredName

/-! ## Labels -/

/-- The letters and digits that a label is made of. -/
def IsLetterOrDigit (c : Char) : Prop :=
  ('A' ≤ c ∧ c ≤ 'Z') ∨ ('a' ≤ c ∧ c ≤ 'z') ∨ ('0' ≤ c ∧ c ≤ '9')

/-- A label: a letter or digit, and behind it letters, digits and hyphens. -/
def IsLabel : Text → Prop
  | [] => False
  | first :: rest => IsLetterOrDigit first ∧ ∀ c ∈ rest, IsLetterOrDigit c ∨ c = '-'

theorem isAlphanum_iff {c : Char} : c.isAlphanum = true ↔ IsLetterOrDigit c := by
  -- The tests compare code points, and so does the order of characters.
  have hrange : ∀ first last : Char,
      (decide (c.val ≥ first.val) && decide (c.val ≤ last.val)) = true ↔ first ≤ c ∧ c ≤ last := by
    simp [Char.le_def]
  have hupper : c.isUpper = true ↔ 'A' ≤ c ∧ c ≤ 'Z' := decide_eq_true_iff
  have hlower : c.isLower = true ↔ 'a' ≤ c ∧ c ≤ 'z' := hrange 'a' 'z'
  have hdigit : c.isDigit = true ↔ '0' ≤ c ∧ c ≤ '9' := hrange '0' '9'
  rw [IsLetterOrDigit, ← hupper, ← hlower, ← hdigit, ← or_assoc, ← Bool.or_eq_true,
    ← Bool.or_eq_true]
  exact Iff.rfl

theorem isLabel_iff : isLabel label = true ↔ IsLabel label := by
  cases label with
  | nil => simp [isLabel, IsLabel]
  | cons first rest => simp [isLabel, IsLabel, isAlphanum_iff]

theorem IsLabel.no_dot (h : IsLabel label) : ∀ c ∈ label, (c == '.') = false := by
  have hdot : ¬ IsLetterOrDigit '.' := fun h => absurd (isAlphanum_iff.mpr h) (by decide)
  intro c hc
  rw [beq_eq_false_iff_ne]
  rintro rfl
  cases label with
  | nil => exact h
  | cons first rest =>
    rcases List.mem_cons.mp hc with rfl | hmem
    · exact hdot h.1
    · exact (h.2 '.' hmem).elim hdot (by decide)

theorem areLabels_concat (labels : List Text) (last : Text) :
    areLabels (labels ++ [last]) = true ↔
      (∀ label ∈ labels, IsLabel label) ∧ (last = [] ∨ IsLabel last) := by
  induction labels with
  | nil => simp [areLabels, isLabel_iff]
  | cons label more ih =>
    -- The label is not the last one, so it may not be empty.
    have hstep : areLabels (label :: more ++ [last]) =
        (isLabel label && areLabels (more ++ [last])) := by
      cases more <;> rfl
    rw [hstep, Bool.and_eq_true, ih, isLabel_iff, List.forall_mem_cons, and_assoc]

/-! ## Names -/

/-- A host name: one label or more with dots between them, and perhaps a dot at the end. -/
inductive IsName : Text → Prop where
  /-- A name that ends in a label. -/
  | plain {labels : List Text} : labels ≠ [] → (∀ label ∈ labels, IsLabel label) →
      IsName (['.'].intercalate labels)
  /-- A name that ends in a dot. -/
  | dotted {labels : List Text} : labels ≠ [] → (∀ label ∈ labels, IsLabel label) →
      IsName (['.'].intercalate labels ++ ['.'])

end RegisteredName

open RegisteredName

private theorem exists_concat_of_ne_nil {ts : List Text} (h : ts ≠ []) :
    ∃ before last, ts = before ++ [last] :=
  ⟨ts.dropLast, ts.getLast h, (List.dropLast_concat_getLast h).symm⟩

theorem isName_of_isRegisteredName (hne : t ≠ []) (h : isRegisteredName t = true) : IsName t := by
  obtain ⟨labels, last, hsplit⟩ := exists_concat_of_ne_nil (Text.pieces_ne_nil (· == '.') t)
  have ht : ['.'].intercalate (labels ++ [last]) = t := hsplit ▸ Text.intercalate_pieces '.' t
  rw [isRegisteredName, hsplit, areLabels_concat] at h
  obtain ⟨hlabels, rfl | hlast⟩ := h
  · -- The last piece is empty: the name ends in a dot, and there is a label before it.
    have hbefore : labels ≠ [] := by
      rintro rfl
      exact hne ht.symm
    rw [← ht, Text.intercalate_concat hbefore, List.append_nil]
    exact IsName.dotted hbefore hlabels
  · rw [← ht]
    refine IsName.plain (by simp) ?_
    simpa [or_imp, forall_and] using ⟨hlabels, hlast⟩

theorem isRegisteredName_of_isName (h : IsName t) : isRegisteredName t = true := by
  unfold isRegisteredName
  cases h with
  | @plain labels hne hlabels =>
    have hdots : ∀ label ∈ labels, ∀ c ∈ label, (c == '.') = false :=
      fun label hmem => (hlabels label hmem).no_dot
    rw [Text.pieces_intercalate rfl hne hdots]
    obtain ⟨before, last, rfl⟩ := exists_concat_of_ne_nil hne
    simp only [List.forall_mem_append, List.forall_mem_singleton] at hlabels
    rw [areLabels_concat]
    exact ⟨hlabels.1, .inr hlabels.2⟩
  | @dotted labels hne hlabels =>
    -- Behind the dot at the end stands one more piece, which is empty.
    have hdots : ∀ label ∈ labels ++ [[]], ∀ c ∈ label, (c == '.') = false := by
      simp only [List.forall_mem_append, List.forall_mem_singleton]
      exact ⟨fun label hmem => (hlabels label hmem).no_dot, by simp⟩
    have hglue : ['.'].intercalate (labels ++ [[]]) = ['.'].intercalate labels ++ ['.'] := by
      rw [Text.intercalate_concat hne, List.append_nil]
    rw [← hglue, Text.pieces_intercalate rfl (by simp) hdots, areLabels_concat]
    exact ⟨hlabels, .inl rfl⟩

/-- **The test accepts exactly the names**, and the empty text. -/
theorem isRegisteredName_iff (hne : t ≠ []) : isRegisteredName t = true ↔ IsName t :=
  ⟨isName_of_isRegisteredName hne, isRegisteredName_of_isName⟩

/-- What may name a server: an IPv6 address or a host name. -/
theorem isValid_iff (hne : t ≠ []) : isValid t = true ↔ isIpv6 t = true ∨ IsName t := by
  rw [isValid, Bool.or_eq_true, isRegisteredName_iff hne]

end Pathname.Host
