import Pathname.Proofs.Fixpoint
import Pathname.Proofs.Glue

/-!
# Joins are associative

A join brings a glued text to normal form, and gluing is associative. What remains is that normal
forms may be taken of the parts first: of the base, whose root and stack survive, and of the
addition, whose stack is put on top of any other.

The paths here hold no colons and no home markers, because collapsing segments may uncover one of
them and so give a path another root. The second grouping has to exist: an addition that climbs
over its own beginning has no normal form, but may still lead somewhere from a long base.

- `Unmarked.normalize_glue_left`, `Unmarked.normalize_glue_right`: normal forms of the parts.
- `Unmarked.join_join`: both groupings are the same.
- `join_assoc`: **the main statement**.
-/

namespace Pathname

/-- A path with a root, and without NUL characters, colons and home markers. -/
structure Unmarked (style : Style) (t : Text) (root : Root) : Prop where
  classified : Root.classify style t = some root
  noNul : '\x00' ∉ t
  noColon : ':' ∉ t
  noHome : '~' ∉ t

namespace Unmarked

variable {style : Style} {separator : Separator} {t base addition y : Text} {root : Root}

theorem rooted (h : Unmarked style t root) : Rooted style t root :=
  rooted_of_classify h.classified

/-! ## Roots without marks -/

theorem kind_ne_driveRelative (h : Unmarked style t root) : root.kind ≠ .driveRelative := by
  intro hkind
  obtain ⟨-, letter, rest, rfl, -⟩ := h.rooted.eq_cons_of_driveRelative hkind
  exact h.noColon (by simp)

theorem notLetterColon (h : Unmarked style t root) : ¬ IsLetterColon style t := by
  rintro ⟨-, letter, -, rfl⟩
  exact h.noColon (by simp)

/-- Only a home that stands alone is longer than its path. -/
theorem length_le (h : Unmarked style t root) : root.length ≤ t.length := by
  by_cases hle : root.length ≤ t.length
  · exact hle
  · obtain ⟨user, -, rfl⟩ := h.rooted.eq_home_of_length_lt (Nat.lt_of_not_le hle)
    exact absurd (List.mem_cons_self ..) h.noHome

theorem beginsPlain (h : Unmarked style t .relative) : BeginsPlain t :=
  (h.rooted.of_length_eq_zero rfl).2.1

theorem head?_ne_colon (h : Unmarked style t root) : t.head? ≠ some ':' :=
  fun hcolon => h.noColon (List.mem_of_head? hcolon)

theorem toBase (h : Unmarked style t root) (hne : t ≠ []) : Base style t root where
  rooted := h.rooted
  ne_nil := hne
  notLetterColon := h.notLetterColon
  length_le := h.length_le
  ended := by
    intro hall
    have hrelative : root.kind ≠ .relative := by
      intro hkind
      rw [h.rooted.eq_relative hkind] at hall
      exact hne (List.length_eq_zero_iff.mp hall.symm)
    -- What is left are the roots with a separator at their end, and the path ends there too.
    obtain ⟨s, hlast⟩ :=
      h.rooted.getLast?_of_length_eq hrelative h.kind_ne_driveRelative hall
    exact ⟨s.char, hlast, isSeparator_char s⟩

/-- A root without marks is found again in front of any text without them. -/
theorem rooted_rootText_append {u : Text} (h : Unmarked style t root) (hplain : BeginsPlain u)
    (hcolon : ':' ∉ u) (hhome : '~' ∉ u) :
    Rooted style (Normal.rootText separator root t ++ u) root := by
  have hhead : u.head? ≠ some ':' := fun hc => hcolon (List.mem_of_head? hc)
  by_cases hkind : root.kind = .relative
  · -- Nothing marks a root, so there is none.
    obtain rfl := h.rooted.eq_relative hkind
    rw [Normal.rootText_relative, List.nil_append]
    apply (Rooted.relative_iff hplain).mpr
    refine ⟨fun hc => hhome (List.mem_of_head? hc), hhead, fun hsecond => ?_⟩
    exact absurd (List.mem_of_getElem? hsecond) hcolon
  · apply h.rooted.rootText_append hkind
    · exact fun _ => ⟨hplain, fun hc => absurd hc hhead⟩
    · exact fun hdrive => absurd hdrive h.kind_ne_driveRelative

/-! ## Normal forms without marks -/

theorem normalize_eq (h : Unmarked style t root) {keepEnd : Bool} :
    normalize style separator keepEnd t = .ok (Segments.normalForm separator keepEnd root t) :=
  normalize_of_rooted h.noNul h.rooted

/-- The normal form of a path without marks is another one, with the same root. -/
theorem of_normalize (h : Unmarked style t root) {keepEnd : Bool}
    (hy : normalize style separator keepEnd t = .ok (some y)) : Unmarked style y root := by
  have hcolon : ':' ∉ y := fun hc => h.noColon (mem_of_mem_normalize hy hc (by decide))
  have hhome : '~' ∉ y := fun hc => h.noHome (mem_of_mem_normalize hy hc (by decide))
  have hnul : '\x00' ∉ y := fun hc => h.noNul (mem_of_mem_normalize hy hc (by decide))
  obtain ⟨-, root', stack, hrooted, hread, rfl⟩ := normalize_eq_ok_some_iff.mp hy
  obtain rfl : root = root' := hrooted.unique h.rooted
  refine ⟨classify_of_rooted ?_, hnul, hcolon, hhome⟩
  rw [List.mem_append, not_or] at hcolon hhome
  have hstays := Segments.stays_of_mem_stack hread
  exact h.rooted_rootText_append
    (fun c hc => Segments.not_isSeparator_of_head?_write hstays hc) hcolon.2 hhome.2

theorem normalize_normalize (h : Unmarked style t root) {keepEnd : Bool}
    (hy : normalize style separator keepEnd t = .ok (some y)) :
    normalize style separator keepEnd y = .ok (some y) :=
  normalize_normalize_of_rooted h.rooted hy (h.of_normalize hy).rooted

/-! ## Glued paths without marks -/

theorem glued (h : Unmarked style base root) (hadd : Unmarked style addition .relative) :
    Unmarked style (glue base addition) root := by
  have hmem : ∀ c, isSeparator c = false → c ∉ base → c ∉ addition →
      c ∉ glue base addition :=
    fun c hplain hbase hadd hc => (mem_of_mem_glue hc hplain).elim hbase hadd
  refine ⟨?_, hmem _ (by decide) h.noNul hadd.noNul, hmem _ (by decide) h.noColon hadd.noColon,
    hmem _ (by decide) h.noHome hadd.noHome⟩
  by_cases hne : base = []
  · subst hne
    obtain rfl : Root.relative = root := h.rooted.unique Rooted.empty
    exact hadd.classified
  · exact classify_of_rooted ((h.toBase hne).rooted_glue hadd.head?_ne_colon hadd.beginsPlain)

/-- What is read from a base and an addition, one after the other. -/
theorem normalize_glue (h : Unmarked style base root) (hadd : Unmarked style addition .relative) :
    normalize style separator true (glue base addition) =
      .ok (((Segments.resolve? [] (Segments.ofText root base)).bind fun lower =>
        Segments.resolve? lower (Text.pieces isSeparator addition)).map fun stack =>
          Normal.rootText separator root base ++
            Segments.write separator (Segments.endInStep (Text.pieces isSeparator addition))
              stack) := by
  by_cases hne : base = []
  · subst hne
    obtain rfl : Root.relative = root := h.rooted.unique Rooted.empty
    rw [nil_glue, hadd.normalize_eq, Segments.normalForm, Normal.rootText_relative,
      Normal.rootText_relative, Bool.true_and]
    have hempty : Segments.resolve? [] (Segments.ofText .relative []) = some [] :=
      Segments.resolve?_singleton_nil
    rw [hempty]
    rfl
  · exact (h.toBase hne).normalize_glue hadd.head?_ne_colon hadd.beginsPlain (h.glued hadd).noNul

/-- **The normal form of the base may be taken first.** -/
theorem normalize_glue_left (h : Unmarked style base root)
    (hadd : Unmarked style addition .relative)
    (hy : normalize style separator true base = .ok (some y)) :
    normalize style separator true (glue y addition) =
      normalize style separator true (glue base addition) := by
  rw [(h.of_normalize hy).normalize_glue hadd, h.normalize_glue hadd]
  obtain ⟨-, root', stack, hrooted, hread, rfl⟩ := normalize_eq_ok_some_iff.mp hy
  obtain rfl : root = root' := hrooted.unique h.rooted
  -- The base and its normal form have the same root text and are read onto the same stack.
  rw [Normal.rootText_rootText_append hrooted, Segments.ofText,
    Normal.drop_rootText_append hrooted,
    Segments.resolve?_pieces_write (Segments.stays_of_mem_stack hread), hread, List.append_nil]

/-- What climbs over its root does so whatever follows. -/
theorem normalize_glue_eq_none (h : Unmarked style base root)
    (hadd : Unmarked style addition .relative)
    (hnone : normalize style separator true base = .ok none) :
    normalize style separator true (glue base addition) = .ok none := by
  rw [h.normalize_eq, Except.ok.injEq, Segments.normalForm, Option.map_eq_none_iff] at hnone
  rw [h.normalize_glue hadd, hnone]
  rfl

/-- **The normal form of the addition may be taken first**, if there is one. -/
theorem normalize_glue_right (h : Unmarked style base root)
    (hadd : Unmarked style addition .relative)
    (hy : normalize style separator true addition = .ok (some y)) :
    normalize style separator true (glue base y) =
      normalize style separator true (glue base addition) := by
  rw [h.normalize_glue (hadd.of_normalize hy), h.normalize_glue hadd]
  obtain ⟨-, root', stack, hrooted, hread, rfl⟩ := normalize_eq_ok_some_iff.mp hy
  obtain rfl : Root.relative = root' := hrooted.unique hadd.rooted
  have hstays := Segments.stays_of_mem_stack hread
  have hpieces : Segments.ofText .relative addition = Text.pieces isSeparator addition := rfl
  rw [hpieces] at hread ⊢
  rw [Normal.rootText_relative, List.nil_append, Segments.endInStep_pieces_write hstays,
    Bool.true_and]
  -- Both additions put the same segments on any stack.
  have hlower : ∀ lower, Segments.resolve? lower (Text.pieces isSeparator addition) =
      some (stack ++ lower) := fun lower => Segments.resolve?_append_below lower hread
  -- An addition that leaves nothing on the stack ends in a mere step.
  have hend : (Segments.endInStep (Text.pieces isSeparator addition) || stack.isEmpty) =
      Segments.endInStep (Text.pieces isSeparator addition) := by
    cases stack with
    | nil =>
      rw [Segments.endInStep_of_resolve?_eq_nil (Text.pieces_ne_nil isSeparator addition) hread]
      rfl
    | cons top below => rw [List.isEmpty_cons, Bool.or_false]
  simp only [Segments.resolve?_pieces_write hstays, hlower, hend]

/-! ## Joins without marks -/

/-- Joined to the normal form of a path, or to none if there is none, is joined to the path. -/
theorem join_normalize (h : Unmarked style base root) (hadd : Unmarked style addition .relative)
    {z : Option Text} (hz : normalize style style.separator true base = .ok z) :
    join style z addition = normalize style style.separator true (glue base addition) := by
  cases z with
  | none => rw [join_none_of_relative hadd.classified, h.normalize_glue_eq_none hadd hz]
  | some y => rw [join_of_relative hadd.classified, h.normalize_glue_left hadd hz]

theorem join_eq_normalize (h : Unmarked style t root) (hne : root ≠ .relative)
    (base : Option Text) :
    join style base t = normalize style style.separator true t :=
  join_of_rooted h.classified (fun hlength => hne (h.rooted.of_length_eq_zero hlength).1) base

/-- A join is no path at all, or the normal form of a path without marks. -/
theorem join_cases {base : Option Text} (hbase : ∀ t ∈ base, ∃ ra, Unmarked style t ra)
    (hadd : Unmarked style addition root) :
    join style base addition = .ok none ∨
      ∃ t rt, Unmarked style t rt ∧
        join style base addition = normalize style style.separator true t := by
  by_cases hrelative : root = .relative
  · subst hrelative
    cases base with
    | none => exact Or.inl (join_none_of_relative hadd.classified)
    | some base =>
      obtain ⟨ra, h⟩ := hbase base rfl
      exact Or.inr ⟨_, ra, h.glued hadd, join_of_relative hadd.classified base⟩
  · exact Or.inr ⟨addition, root, hadd, hadd.join_eq_normalize hrelative base⟩

theorem exists_join {base : Option Text} (hbase : ∀ t ∈ base, ∃ ra, Unmarked style t ra)
    (hadd : Unmarked style addition root) : ∃ z, join style base addition = .ok z := by
  rcases join_cases hbase hadd with hnone | ⟨t, rt, h, hjoin⟩
  · exact ⟨none, hnone⟩
  · exact ⟨_, hjoin.trans h.normalize_eq⟩

theorem of_join {base : Option Text} (hbase : ∀ t ∈ base, ∃ ra, Unmarked style t ra)
    (hadd : Unmarked style addition root) (hy : join style base addition = .ok (some y)) :
    ∃ ry, Unmarked style y ry := by
  rcases join_cases hbase hadd with hnone | ⟨t, rt, h, hjoin⟩
  · rw [hnone, Except.ok.injEq] at hy
    contradiction
  · exact ⟨rt, h.of_normalize (hjoin.symm.trans hy)⟩

/-! ## Two groupings -/

section Groupings

variable {a ab : Option Text} {b c bc : Text} {rb rc : Root}

/-- Both groupings of two additions without roots are the normal form of the three texts glued
together. -/
theorem join_join_of_relative (ha : ∀ t ∈ a, ∃ ra, Unmarked style t ra)
    (hb : Unmarked style b .relative) (hc : Unmarked style c .relative)
    (hab : join style a b = .ok ab) (hbc : join style (some b) c = .ok (some bc)) :
    join style ab c = join style a bc := by
  rw [join_of_relative hc.classified] at hbc
  have hbc' := (hb.glued hc).of_normalize hbc
  cases a with
  | none =>
    -- Relative to nothing, nothing leads anywhere.
    rw [join_none_of_relative hb.classified, Except.ok.injEq] at hab
    rw [← hab, join_none_of_relative hc.classified, join_none_of_relative hbc'.classified]
  | some a =>
    obtain ⟨ra, ha⟩ := ha a rfl
    rw [join_of_relative hb.classified] at hab
    rw [(ha.glued hb).join_normalize hc hab, join_of_relative hbc'.classified,
      ha.normalize_glue_right (hb.glued hc) hbc, glue_assoc]

/-- **Both groupings are the same**, if the second one exists. -/
theorem join_join (ha : ∀ t ∈ a, ∃ ra, Unmarked style t ra) (hb : Unmarked style b rb)
    (hc : Unmarked style c rc) (hab : join style a b = .ok ab)
    (hbc : join style (some b) c = .ok (some bc)) : join style ab c = join style a bc := by
  by_cases hcrelative : rc = .relative
  · subst hcrelative
    by_cases hbrelative : rb = .relative
    · subst hbrelative
      exact join_join_of_relative ha hb hc hab hbc
    · -- The middle path leads away from the first one, and so does what is joined to it.
      rw [hb.join_eq_normalize hbrelative] at hab
      rw [join_of_relative hc.classified] at hbc
      have hbc' := (hb.glued hc).of_normalize hbc
      rw [hb.join_normalize hc hab, hbc'.join_eq_normalize hbrelative,
        (hb.glued hc).normalize_normalize hbc, hbc]
  · -- The last path leads away from both others.
    rw [hc.join_eq_normalize hcrelative] at hbc
    rw [hc.join_eq_normalize hcrelative, (hc.of_normalize hbc).join_eq_normalize hcrelative,
      hc.normalize_normalize hbc, hbc]

end Groupings

end Unmarked

/-- **Joins are associative wherever the second grouping exists.** The paths have roots, and hold
no NUL characters, colons or home markers; the first one may be absent. If the join of the last
two is a path, then both groupings give the same path, or none, and no join is an error. -/
theorem join_assoc {style : Style} {a : Option Text} {b c : Text} {rb rc : Root}
    (ha : ∀ t ∈ a, ∃ ra, Unmarked style t ra) (hb : Unmarked style b rb)
    (hc : Unmarked style c rc) (hbc : join style (some b) c ≠ .ok none) :
    ∃ ab bc abc, join style a b = .ok ab ∧ join style (some b) c = .ok (some bc) ∧
      join style ab c = .ok abc ∧ join style a bc = .ok abc := by
  have hb' : ∀ t ∈ some b, ∃ rb, Unmarked style t rb :=
    fun t ht => ⟨rb, Option.mem_some.mp ht ▸ hb⟩
  obtain ⟨ab, hab⟩ := Unmarked.exists_join ha hb
  obtain ⟨z, hz⟩ := Unmarked.exists_join hb' hc
  obtain ⟨bc, rfl⟩ := Option.ne_none_iff_exists'.mp fun hnone => hbc (hnone ▸ hz)
  -- The first grouping exists because its inner join has no marks either.
  obtain ⟨abc, habc⟩ : ∃ abc, join style ab c = .ok abc :=
    Unmarked.exists_join (fun t ht => Unmarked.of_join ha hb (ht ▸ hab)) hc
  have hgroup := Unmarked.join_join ha hb hc hab hz
  exact ⟨ab, bc, abc, hab, hz, habc, hgroup.symm.trans habc⟩

/-- An addition that comes to nothing, and one that does not, joined to a share on a server. -/
theorem join_assoc_on_server :
    Unmarked .windows "//srv/p".toList ⟨.server, 6⟩ ∧
    Unmarked .windows "u/..".toList .relative ∧ Unmarked .windows "./q/".toList .relative ∧
    join .windows (some "u/..".toList) "./q/".toList ≠ .ok none ∧
    ∃ ab bc abc, join .windows (some "//srv/p".toList) "u/..".toList = .ok ab ∧
      join .windows (some "u/..".toList) "./q/".toList = .ok (some bc) ∧
      join .windows ab "./q/".toList = .ok abc ∧
      join .windows (some "//srv/p".toList) bc = .ok abc := by
  have ha : Unmarked .windows "//srv/p".toList ⟨.server, 6⟩ :=
    ⟨by decide, by decide, by decide, by decide⟩
  have hb : Unmarked .windows "u/..".toList .relative :=
    ⟨by decide, by decide, by decide, by decide⟩
  have hc : Unmarked .windows "./q/".toList .relative :=
    ⟨by decide, by decide, by decide, by decide⟩
  have hbc : join .windows (some "u/..".toList) "./q/".toList = .ok (some "q\\".toList) := by rfl
  have hsome : join .windows (some "u/..".toList) "./q/".toList ≠ .ok none := by
    rw [hbc]
    simp
  exact ⟨ha, hb, hc, hsome, join_assoc (fun t ht => ⟨_, Option.mem_some.mp ht ▸ ha⟩) hb hc hsome⟩

end Pathname
