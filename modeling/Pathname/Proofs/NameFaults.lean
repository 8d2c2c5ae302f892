import Pathname.Proofs.ExtensionTests
import Pathname.Proofs.InterchangeableSeparators
import Pathname.Proofs.NulRejection

/-!
# What stands in the way of a base name and an extension

Base name and extension are cut out of a path by different steps. For the extension the path is
searched for a stream once; for the base name it is searched as a whole, and what follows its last
separator is searched again, where the same text may have another root. Still the two fail together:
the second search finds nothing that the first one did not find.

- `OpensStream`: the paths whose file name opens a stream, said without the root of the path.
- `hasStreamMarker_windows_iff`: the first search finds exactly these.
- `OpensStream.of_fileName`: the second search finds nothing new.
- `NameFault`: the faults, in the order in which they are found.
- `baseName_and_extension_fail_together`: **the main statement**.
-/

namespace Pathname

open Segments (IsPlain)

variable {style : Style} {root : Root} {t : Text} {dot : Option Nat} {fault : Fault}

/-! ## Positions behind the last separator -/

theorem lastSegmentStart_append (before : Text) {after : Text} (hafter : IsPlain after) :
    lastSegmentStart (before ++ after) = lastSegmentStart before := by
  have hnone : Text.lastIndex? isSeparator after = none :=
    Text.lastIndex?_eq_none_iff.mpr hafter
  rw [lastSegmentStart, lastSeparator?, Text.lastIndex?_append, hnone]
  rfl

theorem lastSegmentStart_le (t : Text) : lastSegmentStart t ≤ t.length := by
  rw [lastSegmentStart]
  split
  · rename_i i hi
    exact lt_length_of_lastSeparator? hi
  · exact Nat.zero_le _

/-- A character that does not separate stands behind the last separator exactly if no separator
follows it. -/
theorem lastSegmentStart_le_iff {before after : Text} {c : Char} (hc : isSeparator c = false) :
    lastSegmentStart (before ++ c :: after) ≤ before.length ↔ IsPlain after := by
  constructor
  · intro hle d hd
    apply isPlain_drop_lastSegmentStart (before ++ c :: after)
    rw [List.drop_append_of_le_length hle]
    exact List.mem_append_right _ (List.mem_cons_of_mem c hd)
  · intro hafter
    have hplain : IsPlain (c :: after) := List.forall_mem_cons.mpr ⟨hc, hafter⟩
    rw [lastSegmentStart_append before hplain]
    exact lastSegmentStart_le before

theorem Text.mem_drop_iff {c : Char} {n : Nat} :
    c ∈ t.drop n ↔ ∃ before after, t = before ++ c :: after ∧ n ≤ before.length := by
  constructor
  · intro h
    have hlt : n < t.length := by
      rw [← Nat.not_le, ← List.drop_eq_nil_iff]
      exact List.ne_nil_of_mem h
    obtain ⟨between, after, hdrop⟩ := List.append_of_mem h
    refine ⟨t.take n ++ between, after, ?_, ?_⟩
    · rw [List.append_assoc, ← hdrop, List.take_append_drop]
    · rw [List.length_append, List.length_take]
      omega
  · rintro ⟨before, after, rfl, hle⟩
    rw [List.drop_append_of_le_length hle]
    exact List.mem_append_right _ List.mem_cons_self

/-! ## Streams -/

/-- A path whose file name opens a stream: some colon stands behind the last separator, and it is
not the one behind the letter of a drive. -/
def OpensStream (t : Text) : Prop :=
  ∃ before after, t = before ++ ':' :: after ∧ IsPlain after ∧
    ∀ letter : Char, letter.isAlpha = true → before ≠ [letter]

theorem Rooted.eq_cons_of_drive (h : Rooted style t root)
    (hkind : root.kind = .driveRelative ∨ root.kind = .driveAbsolute) :
    ∃ (letter : Char) (rest : Text), letter.isAlpha = true ∧ t = letter :: ':' :: rest := by
  cases h with
  | @driveRelative letter rest hletter => exact ⟨letter, rest, hletter, rfl⟩
  | @driveAbsolute letter s rest hletter => exact ⟨letter, s.char :: rest, hletter, rfl⟩
  | empty | relative | letterColon | currentDrive | server =>
    simp [Root.relative, Root.currentDrive] at hkind
  | home | bareHome =>
    unfold Root.homeOf at hkind
    split at hkind <;> simp at hkind

theorem streamStart_of_drive {letter : Char} (hletter : letter.isAlpha = true) (rest : Text) :
    streamStart (letter :: ':' :: rest) =
      max (lastSegmentStart (letter :: ':' :: rest)) 2 := by
  -- A letter and a colon are a drive, with or without its root directory.
  have hrooted : Root.classify .windows (letter :: ':' :: rest) = some ⟨.driveRelative, 2⟩ ∨
      Root.classify .windows (letter :: ':' :: rest) = some ⟨.driveAbsolute, 3⟩ := by
    simp only [classify_eq_some_iff]
    cases rest with
    | nil => exact Or.inl (.driveRelative hletter beginsPlain_nil fun _ => rfl)
    | cons c more =>
      cases hc : isSeparator c with
      | false =>
        have hplain : BeginsPlain (c :: more) := beginsPlain_cons.mpr hc
        exact Or.inl (.driveRelative hletter hplain fun hnil => by simp at hnil)
      | true =>
        obtain ⟨s, rfl⟩ := exists_char_of_isSeparator hc
        exact Or.inr (.driveAbsolute hletter)
  rcases hrooted with hroot | hroot <;> rw [streamStart, hroot]

theorem streamStart_of_no_drive
    (h : ∀ (letter : Char) (rest : Text), letter.isAlpha = true → t ≠ letter :: ':' :: rest) :
    streamStart t = lastSegmentStart t := by
  have hkind : ∀ root, Root.classify .windows t = some root →
      root.kind ≠ .driveRelative ∧ root.kind ≠ .driveAbsolute := by
    intro root hroot
    apply not_or.mp
    intro hdrive
    obtain ⟨letter, rest, hletter, ht⟩ := (rooted_of_classify hroot).eq_cons_of_drive hdrive
    exact h letter rest hletter ht
  rw [streamStart]
  split
  · rename_i hroot
    exact absurd rfl (hkind _ hroot).1
  · rename_i hroot
    exact absurd rfl (hkind _ hroot).2
  · rfl

/-- A colon stands where it opens a stream exactly if no separator follows it and no drive is what
comes before it. -/
theorem streamStart_le_iff {before after : Text} :
    streamStart (before ++ ':' :: after) ≤ before.length ↔
      IsPlain after ∧ ∀ letter : Char, letter.isAlpha = true → before ≠ [letter] := by
  by_cases hdrive : ∃ (letter : Char) (rest : Text),
      letter.isAlpha = true ∧ before ++ ':' :: after = letter :: ':' :: rest
  · obtain ⟨letter, rest, hletter, ht⟩ := hdrive
    rw [ht, streamStart_of_drive hletter, ← ht, Nat.max_le,
      lastSegmentStart_le_iff isSeparator_colon]
    apply and_congr_right
    intro _
    -- The text in front of the colon begins with the letter of the drive.
    cases before with
    | nil =>
      obtain rfl : ':' = letter := (List.cons.inj ht).1
      contradiction
    | cons c more =>
      obtain rfl : c = letter := (List.cons.inj ht).1
      cases more with
      | nil => simp [hletter]
      | cons d rest => simp
  · rw [streamStart_of_no_drive fun letter rest hletter ht => hdrive ⟨letter, rest, hletter, ht⟩,
      lastSegmentStart_le_iff isSeparator_colon]
    apply (and_iff_left ?_).symm
    rintro letter hletter rfl
    exact hdrive ⟨letter, after, hletter, rfl⟩

/-- **A stream is found where there is one.** -/
theorem hasStreamMarker_windows_iff : hasStreamMarker .windows t = true ↔ OpensStream t := by
  have hmarker : hasStreamMarker .windows t = true ↔ ':' ∈ t.drop (streamStart t) :=
    List.contains_iff_mem
  rw [hmarker, Text.mem_drop_iff]
  constructor
  · rintro ⟨before, after, rfl, hle⟩
    exact ⟨before, after, rfl, streamStart_le_iff.mp hle⟩
  · rintro ⟨before, after, rfl, hplain⟩
    exact ⟨before, after, rfl, streamStart_le_iff.mpr hplain⟩

theorem hasStreamMarker_iff :
    hasStreamMarker style t = true ↔ style = .windows ∧ OpensStream t := by
  cases style with
  | unix => simp [hasStreamMarker, Style.hasStreams]
  | windows => simp [hasStreamMarker_windows_iff]

/-- **What opens a stream in the file name alone opens one in the path.** By itself the file name may
begin with a letter and a colon, which then is no stream, but not the other way round: a separator
in front of a drive hides the drive. -/
theorem OpensStream.of_fileName (h : OpensStream (t.drop (lastSegmentStart t))) :
    OpensStream t := by
  obtain ⟨before, after, hname, hplain, hdrive⟩ := h
  refine ⟨t.take (lastSegmentStart t) ++ before, after, ?_, hplain, ?_⟩
  · rw [List.append_assoc, ← hname, List.take_append_drop]
  · intro letter hletter heq
    cases hi : lastSeparator? t with
    | none =>
      -- Without a separator the file name is the path.
      rw [lastSegmentStart, hi, List.take_zero, List.nil_append] at heq
      exact hdrive letter hletter heq
    | some i =>
      -- Otherwise a separator would be the letter.
      obtain ⟨s, hs⟩ := take_succ_of_lastSeparator? hi
      have hmem : s.char ∈ [letter] := by
        rw [← heq, lastSegmentStart, hi, hs]
        simp
      have hsep := not_isSeparator_of_isAlpha hletter
      rw [← List.mem_singleton.mp hmem, isSeparator_char] at hsep
      contradiction

/-! ## Faults -/

/-- What stands in the way of the base name and the extension of a path: the first of three faults
that the path has. -/
inductive NameFault (style : Style) (t : Text) : Fault → Prop where
  /-- The root is malformed, whatever else the path holds. -/
  | malformed : Root.classify style t = none → NameFault style t .unparseableRoot
  /-- The root is good, and there is a NUL character anywhere in the path. -/
  | nul : Root.classify style t ≠ none → '\x00' ∈ t → NameFault style t .nulCharacter
  /-- There is neither of them, and the file name opens a stream in a style that has streams. -/
  | stream : Root.classify style t ≠ none → '\x00' ∉ t → style = .windows → OpensStream t →
      NameFault style t .streamMarker

/-- A path has none of the faults exactly if it has a root, and neither NUL characters nor streams
are found in it. -/
theorem not_nameFault_iff : (∀ fault, ¬ NameFault style t fault) ↔
    (∃ root, Root.classify style t = some root) ∧ '\x00' ∉ t ∧ hasStreamMarker style t = false := by
  rw [← Option.ne_none_iff_exists', ← Bool.not_eq_true, hasStreamMarker_iff]
  constructor
  · intro h
    have hroot : Root.classify style t ≠ none := fun hnone => h _ (.malformed hnone)
    have hnul : '\x00' ∉ t := fun hmem => h _ (.nul hroot hmem)
    exact ⟨hroot, hnul, fun hstream => h _ (.stream hroot hnul hstream.1 hstream.2)⟩
  · rintro ⟨hroot, hnul, hstream⟩ fault hfault
    cases hfault with
    | malformed hnone => exact hroot hnone
    | nul _ hmem => exact hnul hmem
    | stream _ _ hstyle hopens => exact hstream ⟨hstyle, hopens⟩

/-! ## The two answers -/

theorem extensionDot?_of_no_marker (h : hasStreamMarker style t = false) :
    extensionDot? style t = .ok (lastDot? t) := by
  rw [extensionDot?, h]
  rfl

theorem extensionDot?_of_marker (h : hasStreamMarker style t = true) :
    extensionDot? style t = .error ⟨.streamMarker, t⟩ := by
  rw [extensionDot?, h]
  rfl

theorem hasStreamMarker_fileName (h : hasStreamMarker style t = false) :
    hasStreamMarker style (t.drop (lastSegmentStart t)) = false := by
  rw [← Bool.not_eq_true, hasStreamMarker_iff] at h ⊢
  exact fun hname => h ⟨hname.1, hname.2.of_fileName⟩

/-- What comes before the dot before an extension; everything, if there is no such dot. -/
def textBeforeDot (t : Text) : Option Nat → Text
  | none => t
  | some i => t.take i

theorem withoutExtension_of_extensionDot? (hnul : '\x00' ∉ t)
    (hdot : extensionDot? style t = .ok dot) :
    withoutExtension style t = .ok (textBeforeDot t dot) := by
  rw [withoutExtension, rejectNul_of_not_mem hnul]
  show (extensionDot? style t >>= fun dot => _) = _
  rw [hdot]
  cases dot <;> rfl

theorem baseName_of_malformed (hroot : Root.classify style t = none) :
    baseName style t = .error ⟨.unparseableRoot, t⟩ := by
  rw [baseName, fileName, Root.ofText, hroot]
  rfl

section Answers

variable (hroot : Root.classify style t = some root) (hnul : '\x00' ∉ t)

include hroot hnul

theorem extension_of_marker (h : hasStreamMarker style t = true) :
    extension style t = .error ⟨.streamMarker, t⟩ := by
  rw [extension, Root.ofText_eq_ok_iff.mpr hroot, rejectNul_of_not_mem hnul]
  show (extensionDot? style t >>= fun dot => _) = _
  rw [extensionDot?_of_marker h]
  rfl

/-- The base name is refused for a stream in the path before the file name is cut. -/
theorem baseName_of_marker (h : hasStreamMarker style t = true) :
    baseName style t = .error ⟨.streamMarker, t⟩ := by
  rw [baseName, fileName_eq hroot hnul]
  show (extensionDot? style t >>= fun _ => _) = _
  rw [extensionDot?_of_marker h]
  rfl

/-- Without a stream in the path the base name is cut out of the file name, where there is no stream
either. -/
theorem baseName_of_no_marker (h : hasStreamMarker style t = false) :
    baseName style t = .ok (textBeforeDot (t.drop (lastSegmentStart t))
      (lastDot? (t.drop (lastSegmentStart t)))) := by
  rw [baseName, fileName_eq hroot hnul]
  show (extensionDot? style t >>= fun _ => _) = _
  rw [extensionDot?_of_no_marker h]
  apply withoutExtension_of_extensionDot?
  · exact fun hmem => hnul (List.mem_of_mem_drop hmem)
  · exact extensionDot?_of_no_marker (hasStreamMarker_fileName h)

end Answers

/-- Base name and extension fail with the fault of the path. -/
theorem NameFault.fail (h : NameFault style t fault) :
    baseName style t = .error ⟨fault, t⟩ ∧ extension style t = .error ⟨fault, t⟩ := by
  cases h with
  | malformed hroot => exact ⟨baseName_of_malformed hroot, extension_of_malformed hroot⟩
  | nul hroot hnul =>
    obtain ⟨root, hroot⟩ := Option.ne_none_iff_exists'.mp hroot
    exact ⟨baseName_of_nul hroot hnul, extension_of_nul hroot hnul⟩
  | stream hroot hnul hstyle hopens =>
    obtain ⟨root, hroot⟩ := Option.ne_none_iff_exists'.mp hroot
    have hmarker := hasStreamMarker_iff.mpr ⟨hstyle, hopens⟩
    exact ⟨baseName_of_marker hroot hnul hmarker, extension_of_marker hroot hnul hmarker⟩

/-- A path without a fault has a base name and an extension. -/
theorem exists_of_not_nameFault (h : ∀ fault, ¬ NameFault style t fault) :
    ∃ base ext, baseName style t = .ok base ∧ extension style t = .ok ext := by
  obtain ⟨⟨root, hroot⟩, hnul, hmarker⟩ := not_nameFault_iff.mp h
  have hdot := extensionDot?_of_no_marker hmarker
  exact ⟨_, _, baseName_of_no_marker hroot hnul hmarker,
    extension_of_extensionDot? hroot hnul hdot⟩

/-- **Base name and extension fail together.** A path has both, or both are refused with the same
error, which carries the whole path. Its fault is a malformed root; else a NUL character in the
path; else, in the style that has streams, a colon behind the last separator that is not the one
behind the letter of a drive. -/
theorem baseName_and_extension_fail_together (style : Style) (t : Text) :
    ((∃ base ext, baseName style t = .ok base ∧ extension style t = .ok ext) ∨
      ∃ fault, baseName style t = .error ⟨fault, t⟩ ∧ extension style t = .error ⟨fault, t⟩) ∧
    ∀ fault, extension style t = .error ⟨fault, t⟩ ↔ NameFault style t fault := by
  by_cases h : ∃ fault, NameFault style t fault
  · obtain ⟨fault, hfault⟩ := h
    obtain ⟨hbase, hext⟩ := hfault.fail
    refine ⟨Or.inr ⟨fault, hbase, hext⟩, fun other => ⟨fun hother => ?_, fun h => h.fail.2⟩⟩
    -- The answer is one error, so the other fault is this one.
    rw [hext, Except.error.injEq, PathError.mk.injEq] at hother
    exact hother.1 ▸ hfault
  · have hnone := not_exists.mp h
    obtain ⟨base, ext, hbase, hext⟩ := exists_of_not_nameFault hnone
    refine ⟨Or.inl ⟨base, ext, hbase, hext⟩, fun fault => ?_⟩
    apply iff_of_false _ (hnone fault)
    simp [hext]

/-- By itself the name `c:d` is that of a file on a drive; behind a separator it opens a stream. -/
example : baseName .windows "c:d.txt".toList = .ok "c:d".toList ∧
    baseName .windows "a\\c:d".toList = .error ⟨.streamMarker, "a\\c:d".toList⟩ := ⟨rfl, rfl⟩

end Pathname
