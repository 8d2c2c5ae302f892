import Pathname.CaseRule

/-!
# Beginnings and first occurrences under a case rule

What a case rule says of longer texts, and that the first occurrence of a token hides no later
one. Containment of paths and the matching of patterns rest on these.
-/

namespace Pathname.CaseRule

variable {rule : CaseRule} {token text : Text}

theorem beginsWith_append (h : rule.beginsWith text token = true) (more : Text) :
    rule.beginsWith (text ++ more) token = true := by
  fun_induction beginsWith rule text token with
  | case1 => simp [beginsWith]
  | case2 => exact absurd h Bool.false_ne_true
  | case3 c text d token ih =>
    rw [Bool.and_eq_true] at h
    rw [List.cons_append, beginsWith, h.1, ih h.2]
    rfl

theorem equals_append (rule : CaseRule) (text : Text) {more : Text} (hmore : more ≠ []) :
    rule.equals text (text ++ more) = false := by
  simp [equals, hmore]

theorem length_eq_of_equals (h : rule.equals text token = true) : text.length = token.length := by
  rw [equals, Bool.and_eq_true, beq_iff_eq] at h
  exact h.1

theorem beginsWith_of_equals (h : rule.equals text token = true) :
    rule.beginsWith text token = true := by
  rw [equals, Bool.and_eq_true] at h
  exact h.2

/-- Where case matters, to begin with a token is to begin with its characters. -/
theorem exact_beginsWith_iff : exact.beginsWith text token = true ↔ token <+: text := by
  induction token generalizing text with
  | nil => simp [beginsWith]
  | cons d rest ih =>
    cases text with
    | nil => simp [beginsWith]
    | cons c more =>
      rw [beginsWith, Bool.and_eq_true, agrees, beq_iff_eq, ih, List.cons_prefix_cons]
      exact and_congr_left' eq_comm

theorem exact_equals_iff : exact.equals text token = true ↔ text = token := by
  constructor
  · intro h
    have hbegins := exact_beginsWith_iff.mp (beginsWith_of_equals h)
    exact (hbegins.eq_of_length (length_eq_of_equals h).symm).symm
  · rintro rfl
    exact equals_self exact text

/-- **The first occurrence comes first.** Where a token occurs, it is found, and what is found
reaches back at least to that occurrence. -/
theorem exists_seek_of_suffix {ending : Text} (hending : ending <:+ text)
    (hbegins : rule.beginsWith ending token = true) :
    ∃ found, rule.seek token text = some found ∧ ending <:+ found := by
  induction text with
  | nil =>
    obtain rfl : ending = [] := List.suffix_nil.mp hending
    have htoken : token = [] := by simpa using length_le_of_beginsWith hbegins
    exact ⟨[], by rw [seek, htoken]; rfl, List.suffix_refl []⟩
  | cons c rest ih =>
    rw [seek]
    by_cases hhere : rule.beginsWith (c :: rest) token = true
    · exact ⟨c :: rest, if_pos hhere, hending⟩
    · rw [if_neg hhere]
      refine ih ((List.suffix_cons_iff.mp hending).resolve_left ?_)
      rintro rfl
      exact hhere hbegins

end Pathname.CaseRule
