import Pathname.PathPart
import Pathname.Proofs.RootGrammar

/-!
# The parts of a path are slices

Each part of a path is cut out of it by bounds of its own: the length of the root, and the
position of the last separator. The bounds fit together, because a root ends no later than behind
the last separator, unless there is no separator at all.

- `Rooted.length_le_of_lastSeparator?`: the root ends no later than behind the last separator.
- `exists_slices`: **the main statement**.
-/

namespace Pathname

variable {style : Style} {t u : Text} {root : Root} {i : Nat} {withEnd : Bool}

/-! ## The last separator -/

theorem Text.lastIndex?_append (wanted : Char → Bool) (before after : Text) :
    lastIndex? wanted (before ++ after) =
      ((lastIndex? wanted after).map (before.length + ·)).or (lastIndex? wanted before) := by
  induction before with
  | nil => cases h : lastIndex? wanted after <;> simp [h, lastIndex?]
  | cons c rest ih =>
    rw [List.cons_append, lastIndex?, ih]
    cases h : lastIndex? wanted after with
    | none => simp [lastIndex?]
    | some i => simp [Nat.add_right_comm]

theorem Text.lt_length_of_lastIndex? {wanted : Char → Bool} (hi : lastIndex? wanted t = some i) :
    i < t.length := by
  obtain ⟨before, c, after, rfl, rfl, -, -⟩ := eq_append_of_lastIndex? hi
  simp

/-- The last wanted character stands no earlier than any other one. -/
theorem Text.length_le_of_lastIndex?_append {wanted : Char → Bool} {before after : Text}
    {c : Char} (hc : wanted c = true) (hi : lastIndex? wanted (before ++ c :: after) = some i) :
    before.length ≤ i := by
  induction before generalizing i with
  | nil => exact Nat.zero_le i
  | cons d rest ih =>
    rw [List.cons_append, lastIndex?] at hi
    cases hrest : lastIndex? wanted (rest ++ c :: after) with
    | none =>
      have hno := lastIndex?_eq_none_iff.mp hrest c
        (List.mem_append_right rest (List.mem_cons_self ..))
      rw [hc] at hno
      exact absurd hno Bool.noConfusion
    | some j =>
      rw [hrest, Option.some.injEq] at hi
      rw [← hi]
      exact Nat.succ_le_succ (ih hrest)

theorem lastSeparator?_eq_none_iff :
    lastSeparator? t = none ↔ ¬ ∃ c ∈ t, isSeparator c = true := by
  rw [lastSeparator?, Text.lastIndex?_eq_none_iff]
  simp

theorem length_le_of_lastSeparator?_append {before after : Text} {s : Separator}
    (hi : lastSeparator? (before ++ s.char :: after) = some i) : before.length ≤ i :=
  Text.length_le_of_lastIndex?_append (isSeparator_char s) hi

theorem Rooted.length_le_of_lastSeparator? (h : Rooted style t root)
    (hi : lastSeparator? t = some i) : root.length ≤ i + 1 := by
  -- Every root with a separator at its end has it in front of the last one or there.
  cases h with
  | empty | relative | letterColon => exact Nat.zero_le _
  | currentDrive => exact Nat.succ_le_succ (Nat.zero_le i)
  | @driveRelative letter rest hletter =>
    obtain ⟨before, c, after, htext, rfl, hc, -⟩ := Text.eq_append_of_lastIndex? hi
    cases before with
    | nil =>
      -- The letter of a drive is no separator.
      rw [List.nil_append, List.cons.injEq] at htext
      rw [← htext.1, not_isSeparator_of_isAlpha hletter] at hc
      exact absurd hc Bool.false_ne_true
    | cons d rest => simp
  | @driveAbsolute letter s rest =>
    have hle : [letter, ':'].length ≤ i := length_le_of_lastSeparator?_append hi
    exact Nat.succ_le_succ hle
  | @server s₁ s₂ s₃ host rest =>
    have hle : (s₁.char :: s₂.char :: host).length ≤ i := length_le_of_lastSeparator?_append hi
    exact Nat.succ_le_succ hle
  | @home user s rest =>
    have hle : ('~' :: user).length ≤ i := length_le_of_lastSeparator?_append hi
    exact Nat.succ_le_succ hle
  | @bareHome user hplain =>
    have hnone : lastSeparator? ('~' :: user) = none := by
      apply lastSeparator?_eq_none_iff.mpr
      rintro ⟨c, hc, hsep⟩
      rcases List.mem_cons.mp hc with rfl | hc
      · exact absurd hsep (by decide)
      · rw [hplain c hc] at hsep
        exact absurd hsep Bool.false_ne_true
    rw [hnone] at hi
    contradiction

theorem lt_length_of_lastSeparator? (hi : lastSeparator? t = some i) : i < t.length :=
  Text.lt_length_of_lastIndex? hi

/-- What reaches behind the last separator ends in it. -/
theorem take_succ_of_lastSeparator? (hi : lastSeparator? t = some i) :
    ∃ s : Separator, t.take (i + 1) = t.take i ++ [s.char] := by
  obtain ⟨before, c, after, rfl, rfl, hc, -⟩ := Text.eq_append_of_lastIndex? hi
  obtain ⟨s, rfl⟩ := exists_char_of_isSeparator hc
  refine ⟨s, ?_⟩
  rw [List.take_length_add_append 1, List.take_left]
  rfl

/-- What lies between a position and the last separator ends in it, or is empty. -/
theorem drop_take_of_lastSeparator? (hi : lastSeparator? t = some i) {n : Nat} (hle : n ≤ i + 1) :
    (∃ s : Separator, (t.take (i + 1)).drop n = (t.take i).drop n ++ [s.char]) ∨
      (t.take (i + 1)).drop n = [] ∧ (t.take i).drop n = [] := by
  have hlt := lt_length_of_lastSeparator? hi
  rcases Nat.lt_or_eq_of_le hle with hbefore | rfl
  · obtain ⟨s, hs⟩ := take_succ_of_lastSeparator? hi
    have hdrop : n ≤ (t.take i).length := by
      rw [List.length_take]
      omega
    rw [hs, List.drop_append_of_le_length hdrop]
    exact Or.inl ⟨s, rfl⟩
  · right
    constructor
    · exact List.drop_eq_nil_iff.mpr (List.length_take_le ..)
    · apply List.drop_eq_nil_iff.mpr
      rw [List.length_take]
      omega

/-! ## The parts -/

theorem rejectNul_of_subset (hnul : '\x00' ∉ t) (hsubset : u ⊆ t) : rejectNul u = .ok u :=
  rejectNul_of_not_mem fun hmem => hnul (hsubset hmem)

section Parts

variable (hroot : Root.classify style t = some root) (hnul : '\x00' ∉ t)

include hroot

theorem directories_of_no_separator (hi : lastSeparator? t = none) :
    directories style withEnd t = .ok [] := by
  rw [directories, Root.ofText_eq_ok_iff.mpr hroot, hi]
  rfl

/-- The text of the root is cut out of the path when the path has been checked. -/
theorem Root.textOf_eq_map : Root.textOf style t = (rejectNul t).map fun t =>
    if root.exceeds t then t ++ [Separator.slash.char] else t.take root.length := by
  rw [Root.textOf, Root.ofText_eq_ok_iff.mpr hroot]
  show (rejectNul t >>= fun t => pure _) = _
  cases rejectNul t <;> rfl

/-- The file name is cut out of the path when the path has been checked. -/
theorem fileName_eq_map :
    fileName style t = (rejectNul t).map fun t => t.drop (lastSegmentStart t) := by
  rw [fileName, Root.ofText_eq_ok_iff.mpr hroot]
  show (rejectNul t >>= fun t => pure _) = _
  cases rejectNul t <;> rfl

/-- The directories are cut out of the path first, and then checked. -/
theorem directories_eq_rejectNul (hi : lastSeparator? t = some i) :
    directories style withEnd t =
      rejectNul ((t.take (if withEnd then i + 1 else i)).drop root.length) := by
  generalize hstop : (if withEnd then i + 1 else i) = stop
  rw [directories, Root.ofText_eq_ok_iff.mpr hroot, hi]
  show (if t.length ≤ root.length ∨ (if withEnd then i + 1 else i) ≤ root.length then pure []
    else rejectNul ((t.take (if withEnd then i + 1 else i)).drop root.length)) = _
  rw [hstop]
  split
  · rename_i hempty
    have hnil : (t.take stop).drop root.length = [] := by
      apply List.drop_eq_nil_iff.mpr
      rw [List.length_take]
      omega
    rw [hnil]
    rfl
  · rfl

include hnul

theorem Root.textOf_eq : Root.textOf style t =
    .ok (if root.exceeds t then t ++ [Separator.slash.char] else t.take root.length) := by
  rw [Root.textOf_eq_map hroot, rejectNul_of_not_mem hnul]
  rfl

theorem Root.textOf_of_le (hle : root.length ≤ t.length) :
    Root.textOf style t = .ok (t.take root.length) := by
  have hexceeds : root.exceeds t = false := by
    rw [Root.exceeds, decide_eq_false_iff_not]
    exact Nat.not_lt_of_le hle
  rw [Root.textOf_eq hroot hnul, hexceeds, if_neg Bool.false_ne_true]

theorem Root.exists_textOf :
    ∃ rootText, Root.textOf style t = .ok rootText ∧ rootText.length = root.length := by
  refine ⟨_, Root.textOf_eq hroot hnul, ?_⟩
  have hrooted := rooted_of_classify hroot
  have hle := hrooted.length_le
  split
  · rename_i hexceeds
    rw [List.length_append, List.length_singleton, hrooted.exceeds_iff.mp hexceeds]
  · rename_i hexceeds
    have hne := mt hrooted.exceeds_iff.mpr hexceeds
    rw [List.length_take]
    omega

theorem fileName_eq : fileName style t = .ok (t.drop (lastSegmentStart t)) := by
  rw [fileName_eq_map hroot, rejectNul_of_not_mem hnul]
  rfl

/-- Without a separator the full path is the root alone, completed or not. -/
theorem fullPath_of_no_separator (hi : lastSeparator? t = none) :
    fullPath style true t = Root.textOf style t := by
  rw [fullPath, Root.ofText_eq_ok_iff.mpr hroot]
  show (if t.length ≤ root.length then Root.textOf style t else _) = _
  split
  · rfl
  · rename_i hlt
    rw [hi, Root.textOf_of_le hroot hnul (Nat.le_of_not_le hlt)]
    exact rejectNul_of_subset hnul (List.take_subset ..)

/-- With a separator the full path reaches behind the last one. -/
theorem fullPath_of_lastSeparator? (hi : lastSeparator? t = some i) :
    fullPath style true t = .ok (t.take (i + 1)) := by
  rw [fullPath, Root.ofText_eq_ok_iff.mpr hroot]
  show (if t.length ≤ root.length then Root.textOf style t else _) = _
  split
  · -- A path that is all root ends in its last separator.
    rename_i hall
    have hle := (rooted_of_classify hroot).length_le_of_lastSeparator? hi
    have hlt := lt_length_of_lastSeparator? hi
    have hlength : root.length = i + 1 := by omega
    rw [Root.textOf_of_le hroot hnul (hlength ▸ hlt), hlength]
  · rw [hi]
    exact rejectNul_of_subset hnul (List.take_subset ..)

theorem directories_of_lastSeparator? (hi : lastSeparator? t = some i) :
    directories style withEnd t =
      .ok ((t.take (if withEnd then i + 1 else i)).drop root.length) := by
  rw [directories_eq_rejectNul hroot hi]
  apply rejectNul_of_subset hnul
  exact List.Subset.trans (List.drop_subset ..) (List.take_subset ..)

end Parts

/-- **The parts of a path are slices of it.** Of a path with a root and without NUL characters all
parts exist. Its full path is the text of its root and its directories. The directories are those
without their end and one separator, or both are empty. The full path and the file name are the
path exactly if it has a separator or no root; in every other case the file name alone is. -/
theorem exists_slices {style : Style} {t : Text} {root : Root}
    (hroot : Root.classify style t = some root) (hnul : '\x00' ∉ t) :
    ∃ rootText full path pathNoEnd name,
      Root.textOf style t = .ok rootText ∧ fullPath style true t = .ok full ∧
      directories style true t = .ok path ∧ directories style false t = .ok pathNoEnd ∧
      fileName style t = .ok name ∧
      full = rootText ++ path ∧
      ((∃ s : Separator, path = pathNoEnd ++ [s.char]) ∨ path = [] ∧ pathNoEnd = []) ∧
      (full ++ name = t ↔ (∃ c ∈ t, isSeparator c = true) ∨ root.length = 0) ∧
      (¬ ((∃ c ∈ t, isSeparator c = true) ∨ root.length = 0) → name = t) := by
  have hname := fileName_eq hroot hnul
  cases hi : lastSeparator? t with
  | none =>
    -- All of the path is its name, and the full path is the text of the root.
    obtain ⟨rootText, htext, hlength⟩ := Root.exists_textOf hroot hnul
    have hfull := (fullPath_of_no_separator hroot hnul hi).trans htext
    have hwhole : t.drop (lastSegmentStart t) = t := by rw [lastSegmentStart, hi, List.drop_zero]
    have hno := lastSeparator?_eq_none_iff.mp hi
    refine ⟨_, _, _, _, _, htext, hfull, directories_of_no_separator hroot hi,
      directories_of_no_separator hroot hi, hname, (List.append_nil _).symm, Or.inr ⟨rfl, rfl⟩,
      ?_, fun _ => hwhole⟩
    rw [hwhole, ← hlength, List.length_eq_zero_iff, List.append_left_eq_self]
    exact ⟨Or.inr, fun h => h.resolve_left hno⟩
  | some i =>
    have hle := (rooted_of_classify hroot).length_le_of_lastSeparator? hi
    have hlt := lt_length_of_lastSeparator? hi
    have hstart : lastSegmentStart t = i + 1 := by rw [lastSegmentStart, hi]
    have hsome : ∃ c ∈ t, isSeparator c = true := by
      apply Classical.not_not.mp
      intro hno
      rw [lastSeparator?_eq_none_iff.mpr hno] at hi
      contradiction
    refine ⟨_, _, _, _, _, Root.textOf_of_le hroot hnul (Nat.le_trans hle hlt),
      fullPath_of_lastSeparator? hroot hnul hi, directories_of_lastSeparator? hroot hnul hi,
      directories_of_lastSeparator? hroot hnul hi, hname, ?_, ?_, ?_, ?_⟩
    · -- The text of the root is the beginning of the full path.
      have htake : (t.take (i + 1)).take root.length = t.take root.length := by
        rw [List.take_take, Nat.min_eq_left hle]
      rw [if_pos rfl, ← htake, List.take_append_drop]
    · rw [if_pos rfl, if_neg Bool.false_ne_true]
      exact drop_take_of_lastSeparator? hi hle
    · rw [hstart, List.take_append_drop]
      exact ⟨fun _ => Or.inl hsome, fun _ => rfl⟩
    · exact fun hno => absurd (Or.inl hsome) hno

/-- A drive without its root directory, whose name is the whole path. -/
theorem exists_slices_of_drive :
    Root.classify .windows "c:me".toList = some ⟨.driveRelative, 2⟩ ∧
    '\x00' ∉ "c:me".toList ∧
    ∃ rootText full path pathNoEnd name,
      Root.textOf .windows "c:me".toList = .ok rootText ∧
      fullPath .windows true "c:me".toList = .ok full ∧
      directories .windows true "c:me".toList = .ok path ∧
      directories .windows false "c:me".toList = .ok pathNoEnd ∧
      fileName .windows "c:me".toList = .ok name ∧
      full = rootText ++ path ∧ full ++ name ≠ "c:me".toList ∧ name = "c:me".toList := by
  have hroot : Root.classify .windows "c:me".toList = some ⟨.driveRelative, 2⟩ := by decide
  have hnul : '\x00' ∉ "c:me".toList := by decide
  have hnone : lastSeparator? "c:me".toList = none := by rfl
  have hno : ¬ ((∃ c ∈ "c:me".toList, isSeparator c = true) ∨ 2 = 0) :=
    not_or.mpr ⟨lastSeparator?_eq_none_iff.mp hnone, by decide⟩
  obtain ⟨rootText, full, path, pathNoEnd, name, hrootText, hfull, hpath, hpathNoEnd, hname, happend,
    -, hwhole, hrest⟩ := exists_slices hroot hnul
  exact ⟨hroot, hnul, rootText, full, path, pathNoEnd, name, hrootText, hfull, hpath, hpathNoEnd,
    hname, happend, mt hwhole.mp hno, hrest hno⟩

end Pathname
