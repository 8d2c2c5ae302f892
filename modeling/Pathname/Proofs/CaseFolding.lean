import Pathname.CaseRule

/-!
# What characters that agree have in common

Two characters agree without regard to case if they have the same upper case or the same lower
case. Both can be told by one text: the upper case of the lower case, here the fold of a character.
Nearly every character folds to its upper case. The exceptions are six capitals that are not the
upper case of their own small letter, and for one of them, the capital theta symbol, this is felt:
it has the fold of the small theta symbol, but agrees with the ordinary thetas only.

## Architecture

- A case table moves nothing but what it lists (`CaseTable.image_cases`), so a law of all characters is
  a check of the entries of a table, and an argument about characters that stay.
- What has a given image is one of a few characters (`CaseTable.mem_sources`), so a law about a given
  image is a check of these.
- A look-up may begin behind the runs that end before it (`CaseTable.image_startingAt`); the check of
  all entries would be slow without that.
- `CaseRule.agrees_ignoring_iff`: **the main statement**.
-/

namespace Pathname

namespace Unicode

/-! ## The entries of a table -/

/-- The mappings of a run, one for each member. -/
def CaseRun.entries (run : CaseRun) : List (Char × Text) :=
  (List.range ((run.last - run.first) / run.step + 1)).map fun i =>
    (Char.ofNat (run.first + run.step * i), [Char.ofNat (run.target + run.step * i)])

/-- The mappings to several characters. -/
def CaseTable.spelledOut (table : CaseTable) : List (Char × Text) :=
  table.expansions.map fun (code, target) => (Char.ofNat code, target.map Char.ofNat)

/-- All mappings of a table. -/
def CaseTable.entries (table : CaseTable) : List (Char × Text) :=
  table.spelledOut ++ table.runs.flatMap CaseRun.entries

/-! ## What a table does to a character -/

/-- Runs leave a code point alone, or it is a member of one of them. -/
theorem CaseRun.image_eq_or_exists (runs : List CaseRun) (n : Nat) :
    image runs n = n ∨ ∃ run ∈ runs, ∃ i ≤ (run.last - run.first) / run.step,
      n = run.first + run.step * i ∧ image runs n = run.target + run.step * i := by
  induction runs with
  | nil => exact .inl rfl
  | cons run rest ih =>
    unfold image
    split
    · exact .inl rfl
    · split
      · -- The run ends before the code point, so a later one has to map it.
        obtain hself | ⟨later, hlater, hmember⟩ := ih
        · exact .inl hself
        · exact .inr ⟨later, List.mem_cons_of_mem run hlater, hmember⟩
      · split
        · -- The distance from the first member counts whole steps.
          rename_i hfirst hlast hmod
          have hsteps : run.step * ((n - run.first) / run.step) = n - run.first :=
            Nat.mul_div_cancel' (Nat.dvd_of_mod_eq_zero hmod)
          have hbound : (n - run.first) / run.step ≤ (run.last - run.first) / run.step :=
            Nat.div_le_div_right (by omega)
          exact .inr ⟨run, List.mem_cons_self, _, hbound, by omega, by omega⟩
        · exact .inl rfl

namespace CaseTable

theorem mem_of_expansion? {expansions : List (Nat × List Nat)} {n : Nat} {target : List Nat}
    (h : expansion? expansions n = some target) : (n, target) ∈ expansions := by
  induction expansions with
  | nil => contradiction
  | cons expansion rest ih =>
    obtain ⟨code, first⟩ := expansion
    unfold expansion? at h
    split at h
    · contradiction
    · split at h
      · rename_i hcode
        simp [hcode, Option.some.inj h]
      · exact List.mem_cons_of_mem _ (ih h)

/-- An image is spelled out, or it is the character, or it is that of a member of a run. -/
theorem image_cases (table : CaseTable) (c : Char) :
    (c, table.image c) ∈ table.spelledOut ∨ table.image c = [c] ∨
      ∃ run ∈ table.runs, ∃ i ≤ (run.last - run.first) / run.step,
        c.toNat = run.first + run.step * i ∧
        table.image c = [Char.ofNat (run.target + run.step * i)] := by
  unfold image
  split
  · rename_i target htarget
    have hmem : (Char.ofNat c.toNat, target.map Char.ofNat) ∈ table.spelledOut :=
      List.mem_map_of_mem (mem_of_expansion? htarget)
    rw [Char.ofNat_toNat] at hmem
    exact .inl hmem
  · right
    obtain hself | ⟨run, hrun, i, hi, hc, himage⟩ :=
      CaseRun.image_eq_or_exists table.runs c.toNat
    · exact .inl (by rw [hself, Char.ofNat_toNat])
    · exact .inr ⟨run, hrun, i, hi, hc, by rw [himage]⟩

/-- **A table moves nothing but what it lists.** -/
theorem image_eq_or_mem_entries (table : CaseTable) (c : Char) :
    table.image c = [c] ∨ (c, table.image c) ∈ table.entries := by
  obtain hspelled | hself | ⟨run, hrun, i, hi, hc, himage⟩ := table.image_cases c
  · exact .inr (List.mem_append_left _ hspelled)
  · exact .inl hself
  · have hentry : (c, table.image c) ∈ run.entries := by
      rw [himage, ← Char.ofNat_toNat c, hc]
      exact List.mem_map_of_mem (List.mem_range.mpr (Nat.lt_succ_of_le hi))
    exact .inr (List.mem_append_right _ (List.mem_flatMap.mpr ⟨run, hrun, hentry⟩))

/-! ## Back from an image -/

/-- What a table may map to a text: the character that it is, those that are spelled out as it, and
one member of each run whose images reach it. -/
def sources (table : CaseTable) (t : Text) : List Char :=
  (table.spelledOut.filter fun entry => entry.2 == t).map Prod.fst ++ t.flatMap fun d =>
    d :: (table.runs.filter fun run =>
      run.target.ble d.toNat && d.toNat.ble (run.target + (run.last - run.first))).map
        fun run => Char.ofNat (run.first + (d.toNat - run.target))

/-- Every character but NUL has one code point only. -/
private theorem eq_toNat_of_ofNat {n : Nat} (h : Char.ofNat n ≠ '\x00') :
    n = (Char.ofNat n).toNat := by
  by_cases hvalid : n.isValidChar
  · have hchar : Char.ofNat n = Char.ofNatAux n hvalid := dif_pos hvalid
    rw [hchar]
    rfl
  · exact absurd (dif_neg hvalid) h

theorem mem_sources {table : CaseTable} {c : Char} {t : Text} (h : table.image c = t)
    (hnul : '\x00' ∉ t) : c ∈ table.sources t := by
  obtain hspelled | hself | ⟨run, hrun, i, hi, hc, himage⟩ := table.image_cases c
  · refine List.mem_append_left _ (List.mem_map.mpr ⟨(c, t), ?_, rfl⟩)
    simpa [← h] using hspelled
  · rw [← h, hself]
    exact List.mem_append_right _ (by simp)
  · obtain rfl := h.symm.trans himage
    -- The code point of the image gives the number of steps back.
    have hd : run.target + run.step * i = (Char.ofNat (run.target + run.step * i)).toNat :=
      eq_toNat_of_ofNat fun hzero => hnul (by simp [hzero])
    have hreach : run.step * i ≤ run.last - run.first :=
      Nat.le_trans (Nat.mul_le_mul_left _ hi) (Nat.mul_div_le _ _)
    refine List.mem_append_right _ (List.mem_flatMap.mpr ⟨_, List.mem_singleton_self _, ?_⟩)
    rw [← hd]
    refine List.mem_cons_of_mem _ (List.mem_map.mpr ⟨run, ?_, ?_⟩)
    · simpa [hrun] using hreach
    · rw [Nat.add_sub_cancel_left, ← hc, Char.ofNat_toNat]

/-! ## Shorter look-ups -/

/-- A table without the mappings at its beginning that end before a code point. -/
def startingAt (table : CaseTable) (least : Nat) : CaseTable where
  runs := table.runs.dropWhile fun run => run.first.ble least && run.last.blt least
  expansions := table.expansions.dropWhile fun expansion => expansion.1.blt least

theorem image_dropWhile (runs : List CaseRun) {least n : Nat} (h : least ≤ n) :
    CaseRun.image (runs.dropWhile fun run => run.first.ble least && run.last.blt least) n =
      CaseRun.image runs n := by
  induction runs with
  | nil => rfl
  | cons run rest ih =>
    rw [List.dropWhile_cons]
    split
    · rename_i hends
      simp only [Bool.and_eq_true, Nat.ble_eq, Nat.blt_eq] at hends
      rw [ih, CaseRun.image, if_neg (by omega), if_pos (by omega)]
    · rfl

theorem expansion?_dropWhile (expansions : List (Nat × List Nat)) {least n : Nat} (h : least ≤ n) :
    expansion? (expansions.dropWhile fun expansion => expansion.1.blt least) n =
      expansion? expansions n := by
  induction expansions with
  | nil => rfl
  | cons expansion rest ih =>
    rw [List.dropWhile_cons]
    split
    · rename_i hends
      rw [Nat.blt_eq] at hends
      rw [ih, expansion?, if_neg (by omega), if_neg (by omega)]
    · rfl

/-- What lies before a character may be left out of its look-up. -/
theorem image_startingAt (table : CaseTable) {least : Nat} {c : Char} (h : least ≤ c.toNat) :
    (table.startingAt least).image c = table.image c := by
  simp only [image, startingAt, expansion?_dropWhile _ h, image_dropWhile _ h]

end CaseTable

/-! ## Folds -/

/-- The fold of a character: the upper case of its lower case. -/
def fold (c : Char) : Text := (lower c).flatMap upper

/-- The capitals that are not the upper case of their small letter: the capital I with a dot, the
capital theta symbol, the capital sharp s, and the signs for ohm, kelvin and ångström. -/
def strayCapitals : List Char := ['\u0130', '\u03f4', '\u1e9e', '\u2126', '\u212a', '\u212b']

/-- The entries of a run, where each look-up begins at the run, so that the check is fast. -/
private theorem fold_entries_of_run : ∀ run ∈ lowerCase.runs, ∀ entry ∈ run.entries,
    (entry.2.flatMap (upperCase.startingAt run.target).image =
      (upperCase.startingAt run.first).image entry.1 ∨ entry.1 ∈ strayCapitals) ∧
    run.first ≤ entry.1.toNat ∧ (entry.2.all fun d => run.target.ble d.toNat) = true := by
  decide +kernel

private theorem fold_entries : ∀ entry ∈ lowerCase.entries,
    entry.2.flatMap upper = upper entry.1 ∨ entry.1 ∈ strayCapitals := by
  intro entry hentry
  rcases List.mem_append.mp hentry with hspelled | hruns
  · -- The one small letter that is spelled out is that of a stray capital.
    have hstray : ∀ entry ∈ lowerCase.spelledOut, entry.1 ∈ strayCapitals := by decide
    exact .inr (hstray entry hspelled)
  · -- The look-ups that begin at a run are look-ups in the whole table.
    obtain ⟨run, hrun, hmember⟩ := List.mem_flatMap.mp hruns
    obtain ⟨hlookup, hfirst, htarget⟩ := fold_entries_of_run run hrun entry hmember
    have hupper : entry.2.map (upperCase.startingAt run.target).image = entry.2.map upper :=
      List.map_congr_left fun d hd =>
        CaseTable.image_startingAt _ (Nat.le_of_ble_eq_true (List.all_eq_true.mp htarget d hd))
    rwa [CaseTable.image_startingAt _ hfirst, List.flatMap_def, hupper,
      ← List.flatMap_def] at hlookup

/-- Every other character folds to its upper case. -/
theorem fold_eq_upper {c : Char} (h : c ∉ strayCapitals) : fold c = upper c := by
  obtain hself | hentry := lowerCase.image_eq_or_mem_entries c
  · simp [fold, lower, hself]
  · exact (fold_entries _ hentry).resolve_right h

/-- A stray capital is the upper case of itself only. -/
theorem eq_of_upper_eq_of_stray {s c : Char} (hs : s ∈ strayCapitals) (h : upper c = upper s) :
    c = s := by
  have hupper : strayCapitals.all (fun s => upper s == [s] && s != '\x00') = true := by
    decide +kernel
  have hsources : strayCapitals.all (fun s =>
      (upperCase.sources [s]).all fun c => upper c != [s] || c == s) = true := by
    decide +kernel
  simp only [List.all_eq_true, Bool.and_eq_true, Bool.or_eq_true, beq_iff_eq, bne_iff_ne]
    at hupper hsources
  obtain ⟨hself, hnul⟩ := hupper s hs
  rw [hself] at h
  have hmem : c ∈ upperCase.sources [s] :=
    CaseTable.mem_sources h fun hzero => hnul (List.mem_singleton.mp hzero).symm
  exact (hsources s hs c hmem).resolve_left (not_not_intro h)

/-- What has the fold of a stray capital for its upper case has its small letter too, but for the
small theta symbol. -/
theorem lower_eq_or_of_stray {s c : Char} (hs : s ∈ strayCapitals) (h : upper c = fold s) :
    lower s = lower c ∨ s = '\u03f4' ∧ c = '\u03d1' := by
  have hnul : strayCapitals.all (fun s => !(fold s).contains '\x00') = true := by decide +kernel
  have hsources : strayCapitals.all (fun s =>
      (upperCase.sources (fold s)).all fun c => upper c != fold s ||
        (lower s == lower c || s == '\u03f4' && c == '\u03d1')) = true := by
    decide +kernel
  simp only [List.all_eq_true, Bool.and_eq_true, Bool.or_eq_true, beq_iff_eq, bne_iff_ne,
    Bool.not_eq_true', List.contains_eq_mem, decide_eq_false_iff_not] at hnul hsources
  have hmem : c ∈ upperCase.sources (fold s) := CaseTable.mem_sources h (hnul s hs)
  exact (hsources s hs c hmem).resolve_left (not_not_intro h)

theorem fold_eq_of_upper_eq {a b : Char} (h : upper a = upper b) : fold a = fold b := by
  by_cases ha : a ∈ strayCapitals
  · rw [eq_of_upper_eq_of_stray ha h.symm]
  · by_cases hb : b ∈ strayCapitals
    · rw [eq_of_upper_eq_of_stray hb h]
    · rw [fold_eq_upper ha, fold_eq_upper hb, h]

theorem fold_eq_of_lower_eq {a b : Char} (h : lower a = lower b) : fold a = fold b :=
  congrArg (List.flatMap upper) h

/-- One of two characters is the capital theta symbol, and the other is the small one. -/
def AreThetaSymbols (a b : Char) : Prop :=
  a = '\u03f4' ∧ b = '\u03d1' ∨ a = '\u03d1' ∧ b = '\u03f4'

instance (a b : Char) : Decidable (AreThetaSymbols a b) :=
  inferInstanceAs (Decidable (_ ∨ _))

theorem upper_eq_or_lower_eq_of_fold_eq {a b : Char} (h : fold a = fold b)
    (hthetas : ¬ AreThetaSymbols a b) : upper a = upper b ∨ lower a = lower b := by
  -- A stray capital has no use for its upper case here, so its small letter has to be shared.
  by_cases ha : a ∈ strayCapitals
  · by_cases hb : b ∈ strayCapitals
    · -- No two stray capitals have one fold.
      have hdistinct : strayCapitals.all (fun s =>
          strayCapitals.all fun r => fold s != fold r || s == r) = true := by
        decide +kernel
      simp only [List.all_eq_true, Bool.or_eq_true, beq_iff_eq, bne_iff_ne] at hdistinct
      exact .inr (congrArg lower ((hdistinct a ha b hb).resolve_left (not_not_intro h)))
    · rw [fold_eq_upper hb] at h
      obtain hlower | hsymbols := lower_eq_or_of_stray ha h.symm
      · exact .inr hlower
      · exact absurd (.inl hsymbols) hthetas
  · rw [fold_eq_upper ha] at h
    by_cases hb : b ∈ strayCapitals
    · obtain hlower | ⟨hb, ha⟩ := lower_eq_or_of_stray hb h
      · exact .inr hlower.symm
      · exact absurd (.inr ⟨ha, hb⟩) hthetas
    · rw [fold_eq_upper hb] at h
      exact .inl h

end Unicode

namespace CaseRule

open Unicode

/-- **Characters agree without regard to case exactly if they have the same fold**, the two theta
symbols excepted: both agree with the small theta, and not with each other. -/
theorem agrees_ignoring_iff {a b : Char} :
    ignoring.agrees a b = true ↔ fold a = fold b ∧ ¬ AreThetaSymbols a b := by
  constructor
  · intro h
    have hthetas : ¬ AreThetaSymbols a b := by
      rintro (⟨rfl, rfl⟩ | ⟨rfl, rfl⟩) <;> revert h <;> decide
    refine ⟨?_, hthetas⟩
    simp only [agrees, Bool.or_eq_true, beq_iff_eq] at h
    obtain (rfl | hupper) | hlower := h
    · rfl
    · exact fold_eq_of_upper_eq hupper
    · exact fold_eq_of_lower_eq hlower
  · rintro ⟨hfold, hthetas⟩
    obtain hupper | hlower := upper_eq_or_lower_eq_of_fold_eq hfold hthetas
    · simp [agrees, hupper]
    · simp [agrees, hlower]

end CaseRule

end Pathname
