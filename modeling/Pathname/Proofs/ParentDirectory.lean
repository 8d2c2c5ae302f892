import Pathname.Proofs.Containment
import Pathname.Proofs.EndSeparator

/-!
# Paths lie in their full paths

The full path of a path in normal form is its parent directory, and so it should contain the path. It
does so with the separator at its end, and without it too, although cutting that off may take the
separator of the root along: from `~\a` it leaves `~`, from `\\server\a` it leaves `\\server`, and
containment puts the separator back.

- `Canonical.exists_lastSeparator`: the last separator stands behind the parent and before the name.
- `contains_of_separator`: a directory with its separator contains what follows it.
- `exists_fullPath_contains`: **the main statement**.
-/

namespace Pathname

variable {style : Style} {separator : Separator} {c before after : Text} {root : Root}
  {stack : List Text}

/-! ## The last separator of a path in normal form -/

namespace Canonical

/-- Behind the last separator of a path that is not all root stands a name. -/
theorem exists_lastSeparator (h : Canonical style separator c root stack)
    (hrelative : root.kind ≠ .relative) (hdrive : root.kind ≠ .driveRelative)
    (hnamed : root.length < c.length) :
    ∃ before after, c = before ++ separator.char :: after ∧ after ≠ [] ∧
      lastSeparator? c = some before.length := by
  -- The root ends in a separator, so there is a last one.
  obtain ⟨beginning, s, rest, hsplit, -⟩ :=
    h.rooted.exists_separator_before hrelative hdrive (Nat.le_of_lt hnamed)
  have hs : s.char ∈ c := hsplit ▸ List.mem_append_right beginning List.mem_cons_self
  cases hlast : lastSeparator? c with
  | none => exact absurd ⟨s.char, hs, isSeparator_char s⟩ (lastSeparator?_eq_none_iff.mp hlast)
  | some i =>
    obtain ⟨before, d, after, hc, rfl, hd, -⟩ := Text.eq_append_of_lastIndex? hlast
    have hmem : d ∈ c := hc ▸ List.mem_append_right before List.mem_cons_self
    obtain rfl := h.eq_char_of_mem hmem hd
    refine ⟨before, after, hc, ?_, rfl⟩
    rintro rfl
    -- A path that ends in a separator is all root.
    have hend : c.getLast? = some separator.char := by rw [hc, List.getLast?_concat]
    have hwrite := h.drop_eq_write
    rw [h.stack_eq_nil hend hd, Segments.write_nil, List.drop_eq_nil_iff] at hwrite
    omega

end Canonical

/-! ## Containment behind a separator -/

/-- A directory with the separator at its end contains what follows. -/
theorem contains_of_separator (rule : CaseRule) (hafter : after ≠ [])
    (hchoice : (before ++ separator.char :: after).head? = some '/' ↔ separator = .slash) :
    contains rule (some (before ++ [separator.char]))
      (some (before ++ separator.char :: after)) = true := by
  -- Containment chooses by the first character, which the directory shares with the whole.
  have hhead : (before ++ separator.char :: after).head? = (before ++ [separator.char]).head? := by
    cases before <;> rfl
  have hsplit : before ++ separator.char :: after = (before ++ [separator.char]) ++ after := by simp
  rw [hhead] at hchoice
  rw [hsplit]
  apply contains_of_append rule (by simp) hafter
  rw [inside_eq hchoice, if_pos List.getLast?_concat]
  exact List.prefix_append _ _

/-- And so it does without that separator, if anything is left. -/
theorem contains_before_separator (rule : CaseRule) (hbefore : before ≠ [])
    (hchoice : (before ++ separator.char :: after).head? = some '/' ↔ separator = .slash) :
    contains rule (some before) (some (before ++ separator.char :: after)) = true := by
  have hhead : (before ++ separator.char :: after).head? = before.head? := by
    cases before with
    | nil => contradiction
    | cons d rest => rfl
  rw [hhead] at hchoice
  exact contains_of_append rule hbefore (List.cons_ne_nil _ after)
    (inside_append_separator hchoice after)

/-! ## Parents -/

/-- **Paths lie in their full paths.** The path is in normal form without a separator at its end, and
is not all root; it has a root, and this is no drive without its root directory; and if it is
written with slashes, it begins with one. Then both full paths exist, with and without the separator
at the end, and both contain the path, whatever the case policy. -/
theorem exists_fullPath_contains (hc : normalize style separator false c = .ok (some c))
    (hroot : Root.classify style c = some root) (hrelative : root.kind ≠ .relative)
    (hdrive : root.kind ≠ .driveRelative) (hnamed : root.length < c.length)
    (hslash : separator = .slash → c.head? = some '/') :
    ∃ full fullNoEnd, fullPath style true c = .ok full ∧ fullPath style false c = .ok fullNoEnd ∧
      ∀ (other : Style) (policy : CasePolicy),
        contains (policy.rule other) (some full) (some c) = true ∧
        contains (policy.rule other) (some fullNoEnd) (some c) = true := by
  obtain ⟨root', stack, hcanonical⟩ := exists_canonical hc
  obtain rfl : root = root' := hcanonical.rooted.unique (rooted_of_classify hroot)
  obtain ⟨before, after, htext, hafter, hlast⟩ :=
    hcanonical.exists_lastSeparator hrelative hdrive hnamed
  have hchoice := hcanonical.head?_eq_slash_iff hslash
  have hwith := fullPath_of_lastSeparator? hroot hcanonical.noNul hlast
  have hwithout := fullPath_false_of_lastSeparator? hroot hcanonical.noNul hnamed hlast
  have hfull : c.take (before.length + 1) = before ++ [separator.char] := by
    rw [htext, List.take_length_add_append 1]
    rfl
  have hcontains : ∀ rule, contains rule (some (c.take (before.length + 1))) (some c) = true := by
    intro rule
    rw [hfull]
    rw [htext] at hchoice ⊢
    exact contains_of_separator rule hafter hchoice
  refine ⟨_, _, hwith, hwithout, fun other policy => ⟨hcontains _, ?_⟩⟩
  by_cases hbefore : before = []
  · -- The separator of the current drive is not cut off.
    subst hbefore
    exact hcontains _
  · -- What is left may be less than the root, but containment adds the separator again.
    rw [Nat.max_eq_left (List.length_pos_iff.mpr hbefore)]
    rw [htext] at hchoice ⊢
    rw [List.take_left]
    exact contains_before_separator _ hbefore hchoice

/-- A file right in the home of the current user, whose parent without the separator is `~`. -/
theorem exists_fullPath_contains_in_home :
    normalize .unix .backslash false "~\\a".toList = .ok (some "~\\a".toList) ∧
    Root.classify .unix "~\\a".toList = some ⟨.homeCurrentUser, 2⟩ ∧
    2 < "~\\a".toList.length ∧
    ∃ full fullNoEnd, fullPath .unix true "~\\a".toList = .ok full ∧
      fullPath .unix false "~\\a".toList = .ok fullNoEnd ∧
      ∀ (other : Style) (policy : CasePolicy),
        contains (policy.rule other) (some full) (some "~\\a".toList) = true ∧
        contains (policy.rule other) (some fullNoEnd) (some "~\\a".toList) = true := by
  have hc : normalize .unix .backslash false "~\\a".toList = .ok (some "~\\a".toList) := by rfl
  have hroot : Root.classify .unix "~\\a".toList = some ⟨.homeCurrentUser, 2⟩ := by decide
  have hnamed : 2 < "~\\a".toList.length := by decide
  exact ⟨hc, hroot, hnamed,
    exists_fullPath_contains hc hroot (by decide) (by decide) hnamed (fun h => by contradiction)⟩

end Pathname
