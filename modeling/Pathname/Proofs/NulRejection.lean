import Pathname.Proofs.PathSlices

/-!
# NUL characters in the parts of a path

A part of a path never holds a NUL character. A path that holds one, on the other hand, may have
parts all the same: what consists of directories is cut out first and checked then, so that a NUL
character in the file name does not show in it.

- `PathPart.inspected`: where a NUL character is looked for when a part is asked for.
- `PathPart.extract_of_nul`: **the main statement**, a part is refused exactly if there is a NUL
  character in that text.
-/

namespace Pathname

variable {style : Style} {root : Root} {t : Text} {i : Nat} {withEnd : Bool}

/-- The text in which a NUL character stands in the way of a part: for directories the path up to
its file name, with the root or without it, and else all of the path. A home that stands alone is
all directory, though no separator ends it. -/
def PathPart.inspected (root : Root) (t : Text) : PathPart → Text
  | .fullPath | .fullPathNoEnd => if root.exceeds t then t else t.take (lastSegmentStart t)
  | .path | .pathNoEnd => (t.take (lastSegmentStart t)).drop root.length
  | .root | .name | .baseName | .extension | .allButExtension => t

/-! ## Parts that are cut out of a checked path -/

theorem Root.textOf_of_nul (hroot : Root.classify style t = some root) (hnul : '\x00' ∈ t) :
    Root.textOf style t = .error ⟨.nulCharacter, t⟩ := by
  rw [Root.textOf_eq_map hroot, rejectNul_of_mem hnul]
  rfl

theorem fileName_of_nul (hroot : Root.classify style t = some root) (hnul : '\x00' ∈ t) :
    fileName style t = .error ⟨.nulCharacter, t⟩ := by
  rw [fileName_eq_map hroot, rejectNul_of_mem hnul]
  rfl

theorem baseName_of_nul (hroot : Root.classify style t = some root) (hnul : '\x00' ∈ t) :
    baseName style t = .error ⟨.nulCharacter, t⟩ := by
  rw [baseName, fileName_of_nul hroot hnul]
  rfl

theorem extension_of_nul (hroot : Root.classify style t = some root) (hnul : '\x00' ∈ t) :
    extension style t = .error ⟨.nulCharacter, t⟩ := by
  rw [extension, Root.ofText_eq_ok_iff.mpr hroot]
  show (rejectNul t >>= fun t => _) = _
  rw [rejectNul_of_mem hnul]
  rfl

theorem withoutExtension_of_nul (hnul : '\x00' ∈ t) :
    withoutExtension style t = .error ⟨.nulCharacter, t⟩ := by
  rw [withoutExtension, rejectNul_of_mem hnul]
  rfl

/-! ## Parts that are checked by themselves -/

/-- Cutting off the separator at the end of the directories cuts off no other character. -/
theorem mem_drop_take_succ_iff (hi : lastSeparator? t = some i) {c : Char}
    (hplain : isSeparator c = false) (n : Nat) :
    c ∈ (t.take (i + 1)).drop n ↔ c ∈ (t.take i).drop n := by
  obtain ⟨s, hs⟩ := take_succ_of_lastSeparator? hi
  rw [hs, List.drop_append, List.mem_append]
  constructor
  · intro h
    rcases h with hbefore | hsep
    · exact hbefore
    · have hc := List.mem_singleton.mp (List.mem_of_mem_drop hsep)
      rw [hc, isSeparator_char] at hplain
      exact absurd hplain Bool.noConfusion
  · exact Or.inl

/-- Without a separator a root that is all in its path is nothing, or a letter and a colon. -/
theorem Rooted.nul_not_mem_take (h : Rooted style t root) (hi : lastSeparator? t = none)
    (hle : root.length ≤ t.length) : '\x00' ∉ t.take root.length := by
  by_cases hrelative : root.kind = .relative
  · rw [h.eq_relative hrelative]
    exact List.not_mem_nil
  by_cases hdrive : root.kind = .driveRelative
  · obtain ⟨hroot, letter, rest, rfl, hletter, -, -⟩ := h.eq_cons_of_driveRelative hdrive
    have hne : '\x00' ≠ letter := by
      intro heq
      rw [← heq] at hletter
      contradiction
    rw [hroot]
    simp [hne]
  · -- Any other root ends in a separator.
    obtain ⟨before, s, htake⟩ := h.take_length_eq hrelative hdrive hle
    have hmem : s.char ∈ t.take root.length := by
      rw [htake]
      exact List.mem_append_right before (List.mem_singleton.mpr rfl)
    have hsome : ∃ c ∈ t, isSeparator c = true :=
      ⟨s.char, List.mem_of_mem_take hmem, isSeparator_char s⟩
    exact absurd hsome (lastSeparator?_eq_none_iff.mp hi)

/-- In a path that is all root a NUL character stands in front of the last separator. -/
theorem Rooted.nul_mem_take_of_length_eq (h : Rooted style t root)
    (hlength : root.length = t.length) (hnul : '\x00' ∈ t) :
    '\x00' ∈ t.take (lastSegmentStart t) := by
  cases hi : lastSeparator? t with
  | none =>
    have hno := h.nul_not_mem_take hi (Nat.le_of_eq hlength)
    rw [hlength, List.take_length] at hno
    exact absurd hnul hno
  | some i =>
    have hle := h.length_le_of_lastSeparator? hi
    have hstart : lastSegmentStart t = i + 1 := by rw [lastSegmentStart, hi]
    rw [hstart, List.take_of_length_le (hlength ▸ hle)]
    exact hnul

/-- A path that is all root, completed or not, is refused for any NUL character. -/
theorem fullPath_of_nul_in_root (hroot : Root.classify style t = some root) (hnul : '\x00' ∈ t)
    (hall : t.length ≤ root.length) : fullPath style withEnd t = rejectNul t ∧
      '\x00' ∈ if root.exceeds t then t else t.take (lastSegmentStart t) := by
  have hrooted := rooted_of_classify hroot
  constructor
  · rw [fullPath, Root.ofText_eq_ok_iff.mpr hroot]
    show (if t.length ≤ root.length then
      if withEnd then Root.textOf style t else rejectNul t else _) = _
    rw [if_pos hall, Root.textOf_of_nul hroot hnul, rejectNul_of_mem hnul, ite_self]
  · split
    · exact hnul
    · rename_i hexceeds
      have hle := hrooted.length_le
      have hne := mt hrooted.exceeds_iff.mpr hexceeds
      have hlength : root.length = t.length := by omega
      exact hrooted.nul_mem_take_of_length_eq hlength hnul

/-- Of a longer path the text up to its file name is cut out first, and then checked. -/
theorem exists_fullPath_of_lt (hroot : Root.classify style t = some root)
    (hlt : root.length < t.length) :
    ∃ slice, fullPath style withEnd t = rejectNul slice ∧
      ('\x00' ∈ slice ↔ '\x00' ∈ t.take (lastSegmentStart t)) := by
  rw [fullPath, Root.ofText_eq_ok_iff.mpr hroot]
  show ∃ slice, (if t.length ≤ root.length then _ else _) = rejectNul slice ∧ _
  rw [if_neg (Nat.not_le_of_lt hlt)]
  cases hi : lastSeparator? t with
  | none =>
    have hstart : lastSegmentStart t = 0 := by rw [lastSegmentStart, hi]
    have hno := (rooted_of_classify hroot).nul_not_mem_take hi (Nat.le_of_lt hlt)
    refine ⟨t.take root.length, rfl, iff_of_false hno ?_⟩
    rw [hstart]
    exact List.not_mem_nil
  | some i =>
    have hstart : lastSegmentStart t = i + 1 := by rw [lastSegmentStart, hi]
    refine ⟨t.take (if withEnd then i + 1 else max i 1), rfl, ?_⟩
    rw [hstart]
    cases withEnd with
    | true => exact Iff.rfl
    | false =>
      -- At the very beginning the separator is not cut off.
      cases i with
      | zero => exact Iff.rfl
      | succ n =>
        have hmax : max (n + 1) 1 = n + 1 := Nat.max_eq_left (Nat.le_add_left 1 n)
        rw [if_neg Bool.false_ne_true, hmax]
        exact (mem_drop_take_succ_iff hi (by decide) 0).symm

theorem exists_fullPath_eq_rejectNul (hroot : Root.classify style t = some root)
    (hnul : '\x00' ∈ t) :
    ∃ slice, fullPath style withEnd t = rejectNul slice ∧
      ('\x00' ∈ slice ↔ '\x00' ∈ if root.exceeds t then t else t.take (lastSegmentStart t)) := by
  rcases Nat.lt_or_ge root.length t.length with hlt | hall
  · have hexceeds : ¬ root.exceeds t = true := by
      rw [Root.exceeds, decide_eq_true_iff]
      exact Nat.not_lt_of_lt hlt
    rw [if_neg hexceeds]
    exact exists_fullPath_of_lt hroot hlt
  · obtain ⟨hfull, hinspected⟩ := fullPath_of_nul_in_root hroot hnul hall
    exact ⟨t, hfull, iff_of_true hnul hinspected⟩

theorem exists_directories_eq_rejectNul (hroot : Root.classify style t = some root) :
    ∃ slice, directories style withEnd t = rejectNul slice ∧
      ('\x00' ∈ slice ↔ '\x00' ∈ (t.take (lastSegmentStart t)).drop root.length) := by
  cases hi : lastSeparator? t with
  | none =>
    have hstart : lastSegmentStart t = 0 := by rw [lastSegmentStart, hi]
    refine ⟨[], directories_of_no_separator hroot hi, ?_⟩
    rw [hstart, List.take_zero, List.drop_nil]
  | some i =>
    have hstart : lastSegmentStart t = i + 1 := by rw [lastSegmentStart, hi]
    refine ⟨_, directories_eq_rejectNul hroot hi, ?_⟩
    rw [hstart]
    cases withEnd with
    | true => exact Iff.rfl
    | false => exact (mem_drop_take_succ_iff hi (by decide) root.length).symm

/-! ## All parts -/

/-- Each part of a path with a NUL character is what the check leaves of some text, in which there
is a NUL character exactly if there is one in the text that is inspected. -/
theorem PathPart.exists_extract_eq_rejectNul (part : PathPart)
    (hroot : Root.classify style t = some root) (hnul : '\x00' ∈ t) :
    ∃ slice, part.extract style t = rejectNul slice ∧
      ('\x00' ∈ slice ↔ '\x00' ∈ part.inspected root t) := by
  cases part with
  | fullPath => exact exists_fullPath_eq_rejectNul hroot hnul
  | fullPathNoEnd => exact exists_fullPath_eq_rejectNul hroot hnul
  | path => exact exists_directories_eq_rejectNul hroot
  | pathNoEnd => exact exists_directories_eq_rejectNul hroot
  | root => exact ⟨t, (Root.textOf_of_nul hroot hnul).trans (rejectNul_of_mem hnul).symm, Iff.rfl⟩
  | name => exact ⟨t, (fileName_of_nul hroot hnul).trans (rejectNul_of_mem hnul).symm, Iff.rfl⟩
  | baseName => exact ⟨t, (baseName_of_nul hroot hnul).trans (rejectNul_of_mem hnul).symm, Iff.rfl⟩
  | extension =>
    exact ⟨t, (extension_of_nul hroot hnul).trans (rejectNul_of_mem hnul).symm, Iff.rfl⟩
  | allButExtension =>
    exact ⟨t, (withoutExtension_of_nul hnul).trans (rejectNul_of_mem hnul).symm, Iff.rfl⟩

/-- **What is refused for a NUL character, and what is handed out in spite of one.** A part of a
path with a NUL character is refused exactly if there is one in the text that is inspected for the
part; else the part exists, and holds none. -/
theorem PathPart.extract_of_nul (part : PathPart) (hroot : Root.classify style t = some root)
    (hnul : '\x00' ∈ t) :
    ('\x00' ∈ part.inspected root t →
      ∃ slice, part.extract style t = .error ⟨.nulCharacter, slice⟩) ∧
    ('\x00' ∉ part.inspected root t →
      ∃ slice, part.extract style t = .ok slice ∧ '\x00' ∉ slice) := by
  obtain ⟨slice, hextract, hslice⟩ := part.exists_extract_eq_rejectNul hroot hnul
  constructor
  · intro hmem
    exact ⟨slice, hextract.trans (rejectNul_of_mem (hslice.mpr hmem))⟩
  · intro hno
    have hclean := mt hslice.mp hno
    exact ⟨slice, hextract.trans (rejectNul_of_not_mem hclean), hclean⟩

/-- A NUL character in the file name does not show in the directories. -/
theorem extract_of_nul_in_name :
    Root.classify .unix "a/b\x00c".toList = some .relative ∧ '\x00' ∈ "a/b\x00c".toList ∧
    ∃ slice, PathPart.path.extract .unix "a/b\x00c".toList = .ok slice ∧ '\x00' ∉ slice := by
  have hroot : Root.classify .unix "a/b\x00c".toList = some .relative := by decide
  have hnul : '\x00' ∈ "a/b\x00c".toList := by decide
  have hno : '\x00' ∉ PathPart.path.inspected .relative "a/b\x00c".toList := by decide
  exact ⟨hroot, hnul, (PathPart.path.extract_of_nul hroot hnul).2 hno⟩

/-- Not every part of a path with a NUL character is refused. -/
theorem not_all_parts_of_nul_refused :
    ¬ ∀ (style : Style) (t : Text) (root : Root) (part : PathPart),
      Root.classify style t = some root → '\x00' ∈ t →
        ∃ path, part.extract style t = .error ⟨.nulCharacter, path⟩ := by
  intro hall
  have hroot : Root.classify .unix "a\x00b".toList = some .relative := by decide
  have hempty : PathPart.fullPath.extract .unix "a\x00b".toList = .ok [] := by rfl
  obtain ⟨path, herror⟩ := hall .unix "a\x00b".toList .relative .fullPath hroot (by decide)
  rw [hempty] at herror
  contradiction

end Pathname
