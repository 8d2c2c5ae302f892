import Pathname.Proofs.Containment
import Pathname.Proofs.Glue

/-!
# Joins stay inside their base

A relative addition with a normal form of its own never climbs over the place from which it is
taken. Joined to a base in normal form it therefore leads to a place inside the base.

## Architecture

- The base is cut into the text of its root and its written stack (`Canonical`).
- The glued text has the root of the base (`Base.rooted_glue`), but for a drive that stands alone:
  the glue makes it the root directory of the drive.
- The segments of the addition come to lie on top of those of the base
  (`Segments.resolve?_append_below`), so the join begins with the base (`contains_of_append`).
-/

namespace Pathname

open Segments (Stays)

/-! ## Additions -/

/-- A relative addition that is read onto a stack of its own, with that stack. -/
structure Climbs (addition : Text) (stack : List Text) : Prop where
  noNul : '\x00' ∉ addition
  beginsPlain : BeginsPlain addition
  noColon : addition.head? ≠ some ':'
  resolved : Segments.resolve? [] (Text.pieces isSeparator addition) = some stack

theorem Climbs.stays {addition : Text} {stack : List Text} (h : Climbs addition stack) :
    ∀ s ∈ stack, Stays s :=
  Segments.stays_of_resolve? (fun _ hs => absurd hs List.not_mem_nil)
    (fun _ hs _ hc => Text.not_cut_of_mem_pieces hs hc) h.resolved

/-- A relative addition with a normal form that is not empty has a stack that is not empty. -/
theorem exists_stack_of_addition {style : Style} {separator : Separator} {keepEnd : Bool}
    {addition z : Text} (hlength : Root.lengthOf style addition = .ok 0)
    (hnormal : normalize style separator keepEnd addition = .ok (some z)) (hz : z ≠ []) :
    Root.classify style addition = some .relative ∧
      ∃ stack, stack ≠ [] ∧ Climbs addition stack := by
  obtain ⟨hnul, root, stack, hrooted, hstack, hform⟩ := normalize_eq_ok_some_iff.mp hnormal
  obtain ⟨hrelative, hplain, hcolon⟩ := Rooted.of_lengthOf_eq_zero hlength
  obtain rfl := hrelative.unique hrooted
  refine ⟨classify_of_rooted hrelative, stack, ?_, hnul, hplain, hcolon, hstack⟩
  rintro rfl
  exact hz (by rw [hform, Normal.rootText_relative, Segments.write_nil, List.append_nil])

/-! ## The glued text -/

namespace Canonical

variable {style : Style} {separator : Separator} {base addition : Text} {root : Root}
  {lower upper : List Text}

theorem toBase (h : Canonical style separator base root lower) (hne : base ≠ [])
    (hname : ¬ IsLetterColon style base) (hdrive : root.kind = .driveRelative → lower ≠ []) :
    Base style base root where
  rooted := h.rooted
  ne_nil := hne
  notLetterColon := hname
  length_le := h.length_le
  ended := by
    -- A canonical path that is all root ends in its separator.
    intro hall
    obtain rfl := h.stack_eq_nil_of_length_eq hall
    exact ⟨_, h.getLast?_of_stack_eq_nil hne (fun hkind => hdrive hkind rfl), isSeparator_char _⟩

/-- The normal form of the glued text is the base's root with both stacks behind it. -/
theorem normalize_glue (h : Canonical style separator base root lower) (hne : base ≠ [])
    (hname : ¬ IsLetterColon style base) (hdrive : root.kind = .driveRelative → lower ≠ [])
    (hadd : Climbs addition upper) :
    ∃ ended, normalize style separator true (glue base addition) =
      .ok (some (Normal.rootText separator root base ++
        Segments.write separator ended (upper ++ lower))) := by
  have hnul : '\x00' ∉ glue base addition :=
    fun hc => (mem_of_mem_glue hc (by decide)).elim h.noNul hadd.noNul
  have hread : Segments.resolve? lower (Text.pieces isSeparator addition) =
      some (upper ++ lower) := Segments.resolve?_append_below lower hadd.resolved
  rw [(h.toBase hne hname hdrive).normalize_glue hadd.noColon hadd.beginsPlain hnul, h.resolved,
    Option.bind_some, hread]
  exact ⟨_, rfl⟩

end Canonical

/-- Something joined to a drive that stands alone is behind the root directory of the drive. -/
private theorem normalize_glue_bareDrive (style : Style) (separator : Separator) {letter : Char}
    {addition : Text} {upper : List Text} (hletter : letter.isAlpha = true)
    (hadd : Climbs addition upper) :
    ∃ ended, normalize style separator true (glue [letter, ':'] addition) =
      .ok (some ([letter, ':'] ++ separator.char :: Segments.write separator ended upper)) := by
  have hglue : glue [letter, ':'] addition = letter :: ':' :: Separator.slash.char :: addition := by
    have hlast : [letter, ':'].getLast? = some ':' := rfl
    rw [glue_of_getLast? hlast]
    rfl
  have hrooted : Rooted style (letter :: ':' :: Separator.slash.char :: addition)
      ⟨.driveAbsolute, 3⟩ := Rooted.driveAbsolute hletter
  have hnul : '\x00' ∉ letter :: ':' :: Separator.slash.char :: addition := by
    have hfirst : '\x00' ≠ letter := by
      rintro rfl
      contradiction
    simp [hfirst, Separator.char, hadd.noNul]
  exact ⟨_, by
    rw [hglue, normalize_of_stack hnul hrooted hadd.resolved,
      Normal.rootText_driveAbsolute hletter]
    rfl⟩

/-- **Joins stay inside their base.** The base is a path in normal form without a separator at
its end, which begins with a slash in the style that writes slashes. The addition has no root,
and a normal form of its own that is not empty. Then there is a join, and the base contains it,
whatever the case policy. -/
theorem exists_join_and_contains {style : Style} {base addition z : Text} (hne : base ≠ [])
    (hbase : normalize style style.separator false base = .ok (some base))
    (hunix : style = .unix → base.head? = some '/')
    (hlength : Root.lengthOf style addition = .ok 0)
    (hadd : normalize style style.separator true addition = .ok (some z)) (hz : z ≠ []) :
    ∃ y, join style (some base) addition = .ok (some y) ∧
      ∀ policy : CasePolicy, contains (policy.rule style) (some base) (some y) = true := by
  obtain ⟨root, lower, hcanonical⟩ := exists_canonical hbase
  obtain ⟨hrelative, upper, hupper, hclimbs⟩ := exists_stack_of_addition hlength hadd hz
  -- Where no drive stands alone, the base begins with a slash and is no letter and a colon.
  have hname : ¬ IsLetterColon style base := by
    rintro ⟨hstyle, letter, hletter, rfl⟩
    obtain rfl : letter = '/' := by simpa using hunix hstyle
    contradiction
  -- Containment takes the separator of the base from its first character.
  have hchoice : base.head? = some '/' ↔ style.separator = .slash := by
    cases style with
    | unix => exact ⟨fun _ => rfl, fun _ => hunix rfl⟩
    | windows =>
      constructor
      · intro hslash
        have hchar := hcanonical.eq_char_of_mem (List.mem_of_head? hslash) (by decide)
        contradiction
      · intro hslash
        contradiction
  rw [join_of_relative hrelative]
  by_cases hbare : root.kind = .driveRelative ∧ lower = []
  · -- The join is in the root directory of the drive, which begins with the drive.
    obtain ⟨hdrive, rfl⟩ := hbare
    obtain ⟨rfl, letter, rest, rfl, hletter, -, -⟩ :=
      hcanonical.rooted.eq_cons_of_driveRelative hdrive
    obtain rfl : rest = [] := hcanonical.drop_eq_write
    obtain ⟨ended, hjoin⟩ := normalize_glue_bareDrive style style.separator hletter hclimbs
    refine ⟨_, hjoin, fun policy => ?_⟩
    exact contains_of_append _ hne (List.cons_ne_nil _ _) (inside_append_separator hchoice _)
  · have hdrive : root.kind = .driveRelative → lower ≠ [] := fun hkind hnil => hbare ⟨hkind, hnil⟩
    obtain ⟨ended, hjoin⟩ := hcanonical.normalize_glue hne hname hdrive hclimbs
    exact ⟨_, hjoin, fun policy =>
      hcanonical.contains_write _ hne hchoice hdrive hclimbs.stays hupper ended⟩

/-- An addition that leaves a directory of its own again, joined to a share on a server. -/
theorem exists_join_on_server :
    normalize .windows .backslash false "\\\\srv\\a".toList = .ok (some "\\\\srv\\a".toList) ∧
    Root.lengthOf .windows "./b/../c/".toList = .ok 0 ∧
    normalize .windows .backslash true "./b/../c/".toList = .ok (some "c\\".toList) ∧
    ∃ y, join .windows (some "\\\\srv\\a".toList) "./b/../c/".toList = .ok (some y) ∧
      ∀ policy : CasePolicy,
        contains (policy.rule .windows) (some "\\\\srv\\a".toList) (some y) = true := by
  have hbase : normalize .windows .backslash false "\\\\srv\\a".toList =
      .ok (some "\\\\srv\\a".toList) := by rfl
  have hlength : Root.lengthOf .windows "./b/../c/".toList = .ok 0 := by rfl
  have hadd : normalize .windows .backslash true "./b/../c/".toList =
      .ok (some "c\\".toList) := by rfl
  have hunix : Style.windows = .unix → "\\\\srv\\a".toList.head? = some '/' :=
    fun hstyle => absurd hstyle (by decide)
  exact ⟨hbase, hlength, hadd,
    exists_join_and_contains (by decide) hbase hunix hlength hadd (by decide)⟩

end Pathname
