import Pathname.Proofs.PathSlices

/-!
# Where the end separator belongs to the root

The full path without the separator at its end is the text of the root and the directories without
theirs, unless that separator is the one at the end of the root. The separator of the current drive
is spared even then; from every other root it is cut off, so that a file right in the directory
`C:\` has the full path `C:` without end, which is not a path from that directory any more.

- `LiesInRoot`: the exceptions.
- `LiesInRoot.exists_lastSeparator?`, `Rooted.liesInRoot`: they are told by the place of the last
  separator.
- `fullPath_without_end`: **the main statement**.
-/

namespace Pathname

variable {style : Style} {t : Text} {root : Root} {i : Nat}

/-! ## Files right in a root -/

/-- The kinds of roots that are a marker and a separator behind it. -/
def markedKinds : List RootKind := [.driveAbsolute, .server, .homeCurrentUser, .homeNamedUser]

/-- A file right in the directory that a drive, a server or a home stands for. -/
structure LiesInRoot (root : Root) (t : Text) : Prop where
  /-- The root is a marker and a separator. -/
  kind : root.kind ∈ markedKinds
  /-- There is something behind the root. -/
  named : root.length < t.length
  /-- There is no separator behind the root. -/
  plain : ∀ c ∈ t.drop root.length, isSeparator c = false

theorem Text.lastIndex?_append_cons {wanted : Char → Bool} {before after : Text} {c : Char}
    (hc : wanted c = true) (hafter : ∀ x ∈ after, wanted x = false) :
    lastIndex? wanted (before ++ c :: after) = some before.length := by
  have hfirst : lastIndex? wanted (c :: after) = some 0 := by
    rw [lastIndex?, lastIndex?_eq_none_iff.mpr hafter]
    exact if_pos hc
  rw [lastIndex?_append, hfirst]
  rfl

theorem isSeparator_of_lastSeparator? {c : Char} (hi : lastSeparator? t = some i)
    (hc : t[i]? = some c) : isSeparator c = true := by
  obtain ⟨before, d, after, rfl, rfl, hd, -⟩ := Text.eq_append_of_lastIndex? hi
  rw [List.getElem?_append_right (Nat.le_refl _), Nat.sub_self] at hc
  exact Option.some.inj hc ▸ hd

namespace Rooted

theorem exists_marker (h : Rooted style t root) (hle : root.length ≤ t.length)
    (hkind : root.kind ∈ markedKinds) :
    ∃ (marker rest : Text) (s : Separator), marker ≠ [] ∧ t = marker ++ s.char :: rest ∧
      root.length = marker.length + 1 := by
  cases h with
  | empty | relative | letterColon | currentDrive | driveRelative => contradiction
  | @driveAbsolute letter s rest => exact ⟨[letter, ':'], rest, s, List.cons_ne_nil _ _, rfl, rfl⟩
  | @server s₁ s₂ s₃ host rest =>
    exact ⟨s₁.char :: s₂.char :: host, rest, s₃, List.cons_ne_nil _ _, rfl, rfl⟩
  | @home user s rest => exact ⟨'~' :: user, rest, s, List.cons_ne_nil _ _, rfl, rfl⟩
  | @bareHome user =>
    -- A marker without a separator is shorter than its root.
    exact absurd hle (Nat.not_succ_le_self _)

/-- A path that begins with its last separator has a root. -/
theorem length_ne_zero (h : Rooted style t root) (hi : lastSeparator? t = some 0) :
    root.length ≠ 0 := by
  cases h with
  | empty => contradiction
  | relative _ _ hplain =>
    rw [isSeparator_of_lastSeparator? hi rfl] at hplain
    contradiction
  | letterColon hletter =>
    have hplain := not_isSeparator_of_isAlpha hletter
    rw [isSeparator_of_lastSeparator? hi rfl] at hplain
    contradiction
  | currentDrive | driveRelative | driveAbsolute | server | home | bareHome =>
    exact Nat.succ_ne_zero _

/-- A root that ends in the last separator is that separator, or has a marker in front of it. -/
theorem kind_mem_markedKinds (h : Rooted style t root) (hi : lastSeparator? t = some i)
    (hlength : root.length = i + 1) (hne : i ≠ 0) : root.kind ∈ markedKinds := by
  cases h with
  | empty | relative | letterColon => contradiction
  | currentDrive => exact absurd (Nat.succ.inj hlength).symm hne
  | driveRelative =>
    -- In front of its end stands a colon.
    obtain rfl : 1 = i := Nat.succ.inj hlength
    exact absurd (isSeparator_of_lastSeparator? hi rfl) (by decide)
  | driveAbsolute | server => exact List.mem_of_elem_eq_true rfl
  | home | bareHome =>
    unfold Root.homeOf
    dsimp only
    split <;> decide

end Rooted

/-- Right in a root the last separator is the one at its end. -/
theorem LiesInRoot.exists_lastSeparator? (hlies : LiesInRoot root t) (h : Rooted style t root) :
    ∃ i, lastSeparator? t = some i ∧ root.length = i + 1 ∧ i ≠ 0 := by
  obtain ⟨marker, rest, s, hne, rfl, hlength⟩ :=
    h.exists_marker (Nat.le_of_lt hlies.named) hlies.kind
  have hplain : ∀ c ∈ rest, isSeparator c = false := by
    have hdrop := hlies.plain
    rw [hlength, List.drop_length_add_append] at hdrop
    exact hdrop
  exact ⟨marker.length, Text.lastIndex?_append_cons (isSeparator_char s) hplain, hlength,
    mt List.length_eq_zero_iff.mp hne⟩

theorem Rooted.liesInRoot (h : Rooted style t root) (hi : lastSeparator? t = some i)
    (hlength : root.length = i + 1) (hne : i ≠ 0) (hnamed : root.length < t.length) :
    LiesInRoot root t := by
  refine ⟨h.kind_mem_markedKinds hi hlength hne, hnamed, ?_⟩
  obtain ⟨before, c, after, rfl, rfl, -, hafter⟩ := Text.eq_append_of_lastIndex? hi
  rw [hlength, List.drop_length_add_append]
  exact hafter

/-- Everywhere else the root ends before it, or is the separator that is spared. -/
theorem Rooted.take_end_of_not_liesInRoot (h : Rooted style t root)
    (hi : lastSeparator? t = some i) (hnamed : root.length < t.length)
    (hlies : ¬ LiesInRoot root t) :
    t.take (max i 1) = t.take root.length ++ (t.take i).drop root.length := by
  have hend : root.length ≤ i + 1 := h.length_le_of_lastSeparator? hi
  by_cases hzero : i = 0
  · subst hzero
    have hone : root.length = 1 := by
      have := h.length_ne_zero hi
      omega
    rw [hone, List.take_zero, List.drop_nil, List.append_nil]
    rfl
  · have hle : root.length ≤ i := by
      refine Nat.le_of_lt_succ (Nat.lt_of_le_of_ne hend fun hlength => ?_)
      exact hlies (h.liesInRoot hi hlength hzero hnamed)
    have htake : (t.take i).take root.length = t.take root.length := by
      rw [List.take_take, Nat.min_eq_left hle]
    rw [Nat.max_eq_left (Nat.pos_of_ne_zero hzero), ← htake, List.take_append_drop]

/-! ## The full path without its end -/

section FullPath

variable (hroot : Root.classify style t = some root) (hnul : '\x00' ∉ t)

include hroot hnul

theorem fullPath_false_of_all (hall : t.length ≤ root.length) :
    fullPath style false t = .ok t := by
  rw [fullPath, Root.ofText_eq_ok_iff.mpr hroot]
  show (if t.length ≤ root.length then rejectNul t else _) = _
  rw [if_pos hall, rejectNul_of_not_mem hnul]

theorem fullPath_false_of_no_separator (hlt : root.length < t.length)
    (hi : lastSeparator? t = none) : fullPath style false t = .ok (t.take root.length) := by
  rw [fullPath, Root.ofText_eq_ok_iff.mpr hroot, hi]
  show (if t.length ≤ root.length then _ else rejectNul (t.take root.length)) = _
  rw [if_neg (Nat.not_le_of_lt hlt)]
  exact rejectNul_of_subset hnul (List.take_subset ..)

theorem fullPath_false_of_lastSeparator? (hlt : root.length < t.length)
    (hi : lastSeparator? t = some i) : fullPath style false t = .ok (t.take (max i 1)) := by
  rw [fullPath, Root.ofText_eq_ok_iff.mpr hroot, hi]
  show (if t.length ≤ root.length then _ else rejectNul (t.take (max i 1))) = _
  rw [if_neg (Nat.not_le_of_lt hlt)]
  exact rejectNul_of_subset hnul (List.take_subset ..)

/-- Right in a root the end is that of the root. -/
theorem fullPath_of_liesInRoot (hlies : LiesInRoot root t) :
    ∃ (full : Text) (s : Separator), fullPath style false t = .ok full ∧
      Root.textOf style t = .ok (full ++ [s.char]) ∧ directories style false t = .ok [] := by
  have hnamed : root.length < t.length := hlies.named
  obtain ⟨i, hi, hlength, hne⟩ := hlies.exists_lastSeparator? (rooted_of_classify hroot)
  obtain ⟨s, hs⟩ := take_succ_of_lastSeparator? hi
  have hmax : max i 1 = i := Nat.max_eq_left (Nat.pos_of_ne_zero hne)
  have hnil : (t.take i).drop root.length = [] := by
    rw [hlength, List.drop_eq_nil_iff, List.length_take]
    omega
  refine ⟨t.take i, s, ?_, ?_, ?_⟩
  · rw [fullPath_false_of_lastSeparator? hroot hnul hnamed hi, hmax]
  · rw [Root.textOf_of_le hroot hnul (Nat.le_of_lt hnamed), hlength, hs]
  · rw [directories_of_lastSeparator? hroot hnul hi, if_neg Bool.false_ne_true, hnil]

/-- Everywhere else the root is left whole. -/
theorem fullPath_of_not_liesInRoot (hle : root.length ≤ t.length) (hlies : ¬ LiesInRoot root t) :
    ∃ rootText pathNoEnd : Text, Root.textOf style t = .ok rootText ∧
      fullPath style false t = .ok (rootText ++ pathNoEnd) ∧
      directories style false t = .ok pathNoEnd := by
  have hrooted := rooted_of_classify hroot
  have htext := Root.textOf_of_le hroot hnul hle
  cases hi : lastSeparator? t with
  | none =>
    refine ⟨_, [], htext, ?_, directories_of_no_separator hroot hi⟩
    rw [List.append_nil]
    rcases Nat.lt_or_eq_of_le hle with hlt | hall
    · exact fullPath_false_of_no_separator hroot hnul hlt hi
    · rw [fullPath_false_of_all hroot hnul (Nat.le_of_eq hall.symm), hall, List.take_length]
  | some i =>
    refine ⟨_, _, htext, ?_, directories_of_lastSeparator? hroot hnul hi⟩
    rw [if_neg Bool.false_ne_true]
    rcases Nat.lt_or_eq_of_le hle with hnamed | hall
    · rw [fullPath_false_of_lastSeparator? hroot hnul hnamed hi,
        hrooted.take_end_of_not_liesInRoot hi hnamed hlies]
    · have hlt := lt_length_of_lastSeparator? hi
      have hnil : (t.take i).drop root.length = [] := by
        rw [List.drop_eq_nil_iff, List.length_take]
        omega
      rw [fullPath_false_of_all hroot hnul (Nat.le_of_eq hall.symm), hnil, List.append_nil, hall,
        List.take_length]

end FullPath

/-- **Where the end may be cut off.** Of a path that is not shorter than its root, the full path
without the separator at its end is the text of the root and the directories without theirs, but
for a file right in the directory of a drive, of a server or of a home: there, the separator cut off
is the one at the end of the root. -/
theorem fullPath_without_end {style : Style} {t : Text} {root : Root}
    (hroot : Root.classify style t = some root) (hnul : '\x00' ∉ t)
    (hle : root.length ≤ t.length) :
    ∃ rootText full pathNoEnd : Text, Root.textOf style t = .ok rootText ∧
      fullPath style false t = .ok full ∧ directories style false t = .ok pathNoEnd ∧
      (full = rootText ++ pathNoEnd ↔ ¬ LiesInRoot root t) ∧
      (LiesInRoot root t → pathNoEnd = [] ∧ ∃ s : Separator, rootText = full ++ [s.char]) := by
  by_cases hlies : LiesInRoot root t
  · obtain ⟨full, s, hfull, hrootText, hpath⟩ := fullPath_of_liesInRoot hroot hnul hlies
    refine ⟨full ++ [s.char], full, [], hrootText, hfull, hpath, ?_, fun _ => ⟨rfl, s, rfl⟩⟩
    exact iff_of_false (by simp) (not_not_intro hlies)
  · obtain ⟨rootText, pathNoEnd, hrootText, hfull, hpath⟩ :=
      fullPath_of_not_liesInRoot hroot hnul hle hlies
    exact ⟨rootText, rootText ++ pathNoEnd, pathNoEnd, hrootText, hfull, hpath,
      iff_of_true rfl hlies, fun h => absurd h hlies⟩

/-- A file right in the home of the current user. -/
theorem fullPath_without_end_of_home :
    Root.classify .unix "~/a".toList = some ⟨.homeCurrentUser, 2⟩ ∧ '\x00' ∉ "~/a".toList ∧
    2 ≤ "~/a".toList.length ∧ LiesInRoot ⟨.homeCurrentUser, 2⟩ "~/a".toList ∧
    ∃ rootText full pathNoEnd : Text, Root.textOf .unix "~/a".toList = .ok rootText ∧
      fullPath .unix false "~/a".toList = .ok full ∧
      directories .unix false "~/a".toList = .ok pathNoEnd ∧ full ≠ rootText ++ pathNoEnd ∧
      pathNoEnd = [] ∧ ∃ s : Separator, rootText = full ++ [s.char] := by
  have hroot : Root.classify .unix "~/a".toList = some ⟨.homeCurrentUser, 2⟩ := by decide
  have hnul : '\x00' ∉ "~/a".toList := by decide
  have hle : 2 ≤ "~/a".toList.length := by decide
  have hlies : LiesInRoot ⟨.homeCurrentUser, 2⟩ "~/a".toList := by
    refine ⟨by decide, by decide, fun c hc => ?_⟩
    obtain rfl : c = 'a' := List.mem_singleton.mp hc
    rfl
  obtain ⟨rootText, full, pathNoEnd, hrootText, hfull, hpath, hwhole, hcut⟩ :=
    fullPath_without_end hroot hnul hle
  exact ⟨hroot, hnul, hle, hlies, rootText, full, pathNoEnd, hrootText, hfull, hpath,
    fun heq => hwhole.mp heq hlies, hcut hlies⟩

/-- The full path without end does not always begin with the text of the root. -/
theorem not_fullPath_without_end_keeps_root :
    ¬ ∀ (style : Style) (t : Text) (root : Root), Root.classify style t = some root →
      '\x00' ∉ t → root.length ≤ t.length →
        ∃ rootText pathNoEnd : Text, Root.textOf style t = .ok rootText ∧
          directories style false t = .ok pathNoEnd ∧
          fullPath style false t = .ok (rootText ++ pathNoEnd) := by
  intro h
  have hroot : Root.classify .windows "C:\\a".toList = some ⟨.driveAbsolute, 3⟩ := by decide
  have htext : Root.textOf .windows "C:\\a".toList = .ok "C:\\".toList := by rfl
  have hpath : directories .windows false "C:\\a".toList = .ok [] := by rfl
  have hfull : fullPath .windows false "C:\\a".toList = .ok "C:".toList := by rfl
  obtain ⟨rootText, pathNoEnd, hrootText, hpathNoEnd, heq⟩ :=
    h .windows "C:\\a".toList _ hroot (by decide) (by decide)
  obtain rfl := Except.ok.inj (htext.symm.trans hrootText)
  obtain rfl := Except.ok.inj (hpath.symm.trans hpathNoEnd)
  exact absurd (Except.ok.inj (hfull.symm.trans heq)) (by decide)

end Pathname
