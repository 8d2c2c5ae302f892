import Pathname.Proofs.NormalForm

/-!
# Paths in normal form

A path that is its own normal form, written without a separator at its end, is the text of its
root and a written stack of segments. Containment and joins are meant for such paths.

- `Canonical`: the path with its root and its stack.
- `exists_canonical`: every path that `normalize` leaves alone is canonical.
-/

namespace Pathname

open Segments (Stays)

/-- A path in normal form, without a separator at its end, with its root and the stack of its
segments. -/
structure Canonical (style : Style) (separator : Separator) (c : Text) (root : Root)
    (stack : List Text) : Prop where
  rooted : Rooted style c root
  noNul : '\x00' ∉ c
  stays : ∀ s ∈ stack, Stays s
  resolved : Segments.resolve? [] (Segments.ofText root c) = some stack
  text : c = Normal.rootText separator root c ++ Segments.write separator false stack

theorem exists_canonical {style : Style} {separator : Separator} {c : Text}
    (h : normalize style separator false c = .ok (some c)) :
    ∃ root stack, Canonical style separator c root stack := by
  obtain ⟨hnul, root, stack, hrooted, hstack, htext⟩ := normalize_eq_ok_some_iff.mp h
  exact ⟨root, stack, hrooted, hnul, Segments.stays_of_mem_stack hstack, hstack, htext⟩

namespace Canonical

variable {style : Style} {separator : Separator} {c : Text} {root : Root} {stack : List Text}

theorem unify_eq (h : Canonical style separator c root stack) : separator.unify c = c := by
  rw [h.text, Separator.unify_append, Normal.unify_rootText, Separator.unify_write _ h.stays]

/-- The separators of a canonical path are the one that it is written with. -/
theorem eq_char_of_mem (h : Canonical style separator c root stack) {d : Char} (hd : d ∈ c)
    (hsep : isSeparator d = true) : d = separator.char := by
  -- A path that is unified already holds only characters that unifying leaves in it.
  rw [← h.unify_eq, Separator.unify, List.mem_map] at hd
  obtain ⟨e, -, rfl⟩ := hd
  split
  · rfl
  · rename_i he
    rw [if_neg he] at hsep
    exact absurd hsep he

/-- If a path that is written with slashes begins with one, it begins with a slash exactly then. -/
theorem head?_eq_slash_iff (h : Canonical style separator c root stack)
    (hslash : separator = .slash → c.head? = some '/') :
    c.head? = some '/' ↔ separator = .slash := by
  refine ⟨fun hhead => ?_, hslash⟩
  have hchar : '/' = separator.char := h.eq_char_of_mem (List.mem_of_head? hhead) rfl
  cases separator with
  | slash => rfl
  | backslash => contradiction

theorem length_le (h : Canonical style separator c root stack) : root.length ≤ c.length := by
  have hlength := congrArg List.length h.text
  rw [List.length_append, Normal.length_rootText separator h.rooted] at hlength
  omega

theorem rootText_eq_take (h : Canonical style separator c root stack) :
    Normal.rootText separator root c = c.take root.length := by
  have htake := congrArg (List.take root.length) h.text
  rw [List.take_left' (Normal.length_rootText separator h.rooted)] at htake
  exact htake.symm

theorem drop_eq_write (h : Canonical style separator c root stack) :
    c.drop root.length = Segments.write separator false stack := by
  have hdrop := congrArg (List.drop root.length) h.text
  rw [List.drop_left' (Normal.length_rootText separator h.rooted)] at hdrop
  exact hdrop

/-- A canonical path with segments behind its root does not end in a separator. -/
theorem stack_eq_nil (h : Canonical style separator c root stack) {d : Char}
    (hlast : c.getLast? = some d) (hd : isSeparator d = true) : stack = [] := by
  cases stack with
  | nil => rfl
  | cons top below =>
    have htop := h.stays top (List.mem_cons_self ..)
    -- The last character is that of the top segment, which holds no separator.
    have htopLast : top.getLast? = some (top.getLast htop.ne_nil) :=
      List.getLast?_eq_some_getLast htop.ne_nil
    rw [h.text, List.getLast?_append, Segments.getLast?_write htop.ne_nil, htopLast,
      Option.some_or, ← htopLast] at hlast
    have hplain := htop.plain d (List.mem_of_getLast? hlast)
    rw [hplain] at hd
    exact absurd hd Bool.false_ne_true

theorem stack_eq_nil_of_length_eq (h : Canonical style separator c root stack)
    (hlength : root.length = c.length) : stack = [] := by
  have hwrite : Segments.write separator false stack = [] := by
    rw [← h.drop_eq_write, hlength, List.drop_length]
  by_cases hne : stack = []
  · exact hne
  · exact absurd hwrite (Segments.write_ne_nil separator false h.stays hne)

/-- A canonical path that is all root ends in its separator, unless it is empty or a drive that
stands alone. -/
theorem getLast?_of_stack_eq_nil (h : Canonical style separator c root []) (hne : c ≠ [])
    (hdrive : root.kind ≠ .driveRelative) : c.getLast? = some separator.char := by
  have hrelative : root.kind ≠ .relative := by
    intro hkind
    have htext := h.text
    rw [h.rooted.eq_relative hkind, Normal.rootText_relative, Segments.write_nil] at htext
    exact hne htext
  have hc : c.take root.length = c := by
    rw [← h.rootText_eq_take]
    simpa using h.text.symm
  obtain ⟨before, s, htake⟩ := h.rooted.take_length_eq hrelative hdrive h.length_le
  have hlast : c.getLast? = some s.char := by rw [← hc, htake, List.getLast?_concat]
  rw [hlast, h.eq_char_of_mem (List.mem_of_getLast? hlast) (isSeparator_char s)]

end Canonical

end Pathname
