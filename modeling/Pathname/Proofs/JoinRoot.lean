import Pathname.Proofs.Glue
import Pathname.Proofs.RootKept

/-!
# Joins keep the root of their base

What is glued to a rooted path comes behind its root, and a home marker that stands alone gets the
separator that it lacks. Only the normal form may still lose the root: a colon comes to stand behind
the backslash of the current drive, or nothing is left behind a drive where no drive stands alone.

A base that is a bare drive is left out here. The glue makes it the root directory of the drive.

- `LosesRoot.of_absolute`: the two ways in which a root is lost.
- `classify_normalize_of_absolute`: what root the normal form of a rooted path has.
- `rooted_glue_of_absolute`: a glued text has the root of its base.
- `classify_join_of_absolute`: **the main statement**.
- `not_joinKeepsKind`: the joins that fail to keep the kind.
-/

namespace Pathname

open Segments (IsPlain)

/-- A letter and a colon and nothing else. -/
def IsBareDrive (t : Text) : Prop := ∃ letter : Char, letter.isAlpha = true ∧ t = [letter, ':']

/-- The path `y` from the root of the current drive begins with a backslash and a colon. -/
def HasMarkedBackslash (style : Style) (root : Root) (y : Text) : Prop :=
  root.kind = .currentDrive ∧ style = .windows ∧ y[1]? = some ':'

/-- The path `y` on a drive has become a letter and a colon, in the style in which these name no
drive. -/
def IsStrippedDrive (style : Style) (root : Root) (y : Text) : Prop :=
  root.kind = .driveRelative ∧ style = .unix ∧ y.length = 2

variable {style : Style} {root : Root} {t y base addition : Text}

/-! ## Normal forms of rooted paths -/

/-- There is no third way to lose a root. -/
theorem LosesRoot.of_absolute (h : LosesRoot style style.separator root y)
    (hkind : root.kind ≠ .relative) :
    HasMarkedBackslash style root y ∨ IsStrippedDrive style root y := by
  cases h with
  | homeMarker hrelative | leadingColon hrelative | secondColon hrelative =>
    exact absurd hrelative hkind
  | backslashColon hcurrent hseparator hcolon =>
    have hstyle : style = .windows := by
      cases style with
      | unix => contradiction
      | windows => rfl
    exact .inl ⟨hcurrent, hstyle, hcolon⟩
  | bareDrive hdrive hunix hlength => exact .inr ⟨hdrive, hunix, hlength⟩

/-- A normal form begins with the text of the root, and what stands behind it with no separator. -/
theorem exists_eq_rootText_append {separator : Separator} {keepEnd : Bool}
    (hrooted : Rooted style t root)
    (hy : normalize style separator keepEnd t = .ok (some y)) :
    ∃ u, y = Normal.rootText separator root t ++ u ∧ BeginsPlain u := by
  obtain ⟨-, root', stack, hrooted', hread, rfl⟩ := normalize_eq_ok_some_iff.mp hy
  obtain rfl := hrooted.unique hrooted'
  have hstays := Segments.stays_of_mem_stack hread
  exact ⟨_, rfl, fun c hc => Segments.not_isSeparator_of_head?_write hstays hc⟩

/-- What begins with a backslash and a colon has no root. -/
theorem classify_of_hasMarkedBackslash (hrooted : Rooted style t root)
    (hy : normalize style style.separator true t = .ok (some y))
    (h : HasMarkedBackslash style root y) : Root.classify style y = none := by
  obtain ⟨hcurrent, rfl, hcolon⟩ := h
  obtain ⟨u, rfl, -⟩ := exists_eq_rootText_append hrooted hy
  obtain ⟨rfl, s, rest, rfl, -, -⟩ := hrooted.eq_cons_of_currentDrive hcurrent
  rw [Normal.rootText_currentDrive] at hcolon ⊢
  obtain ⟨more, rfl⟩ : ∃ more, u = ':' :: more :=
    List.head?_eq_some_iff.mp (by simpa [List.head?_eq_getElem?] using hcolon)
  rfl

/-- A letter and a colon that name no drive are relative. -/
theorem classify_of_isStrippedDrive (hrooted : Rooted style t root)
    (hy : normalize style style.separator true t = .ok (some y))
    (h : IsStrippedDrive style root y) : Root.classify style y = some .relative := by
  obtain ⟨hdrive, rfl, hlength⟩ := h
  obtain ⟨u, rfl, -⟩ := exists_eq_rootText_append hrooted hy
  obtain ⟨rfl, letter, rest, rfl, hletter, -, -⟩ := hrooted.eq_cons_of_driveRelative hdrive
  rw [Normal.rootText_driveRelative hletter] at hlength ⊢
  obtain rfl : u = [] := by simpa using hlength
  exact classify_of_rooted (.letterColon hletter rfl)

theorem classify_normalize_of_absolute (hrooted : Rooted style t root)
    (hkind : root.kind ≠ .relative)
    (hy : normalize style style.separator true t = .ok (some y)) :
    (¬ HasMarkedBackslash style root y → ¬ IsStrippedDrive style root y →
      Root.classify style y = some root) ∧
    (HasMarkedBackslash style root y → Root.classify style y = none) ∧
    (IsStrippedDrive style root y → Root.classify style y = some .relative) := by
  refine ⟨fun hmarked hstripped => classify_of_rooted ?_,
    classify_of_hasMarkedBackslash hrooted hy, classify_of_isStrippedDrive hrooted hy⟩
  have hkept : ¬ LosesRoot style style.separator root y :=
    fun hlost => (hlost.of_absolute hkind).elim hmarked hstripped
  obtain ⟨u, rfl, hplain⟩ := exists_eq_rootText_append hrooted hy
  exact rooted_of_not_losesRoot hrooted hkind hplain hkept

/-! ## Glued texts -/

/-- Every rooted base but a bare drive keeps its root if it is all in it. -/
theorem base_of_absolute (hrooted : Rooted style base root) (hkind : root.kind ≠ .relative)
    (hbare : ¬ IsBareDrive base) (hle : root.length ≤ base.length) : Base style base root where
  rooted := hrooted
  ne_nil := by
    rintro rfl
    exact hkind (congrArg Root.kind (hrooted.unique .empty).symm)
  notLetterColon := fun ⟨_, letter, hletter, hbase⟩ => hbare ⟨letter, hletter, hbase⟩
  length_le := hle
  ended := by
    intro hall
    -- The one root without a separator at its end is a drive, and there is something behind it.
    have hdrive : root.kind ≠ .driveRelative := by
      intro hdrive
      obtain ⟨rfl, letter, rest, rfl, hletter, -, -⟩ := hrooted.eq_cons_of_driveRelative hdrive
      obtain rfl : rest = [] := List.length_eq_zero_iff.mp (by simpa using hall.symm)
      exact hbare ⟨letter, hletter, rfl⟩
    obtain ⟨s, hlast⟩ := hrooted.getLast?_of_length_eq hkind hdrive hall
    exact ⟨s.char, hlast, isSeparator_char s⟩

/-- A home that stands alone gets its separator from the glue. -/
theorem rooted_glue_home {user : Text} (hplain : IsPlain user) (addition : Text) :
    Rooted style (glue ('~' :: user) addition) (.homeOf user) := by
  have hne : '~' :: user ≠ [] := List.cons_ne_nil '~' user
  have hsep : isSeparator (('~' :: user).getLast hne) = false := by
    rcases List.mem_cons.mp (List.getLast_mem hne) with hhome | hmem
    · rw [hhome, isSeparator_tilde]
    · exact hplain _ hmem
  rw [glue_of_getLast? (List.getLast?_eq_some_getLast hne), hsep]
  exact .home hplain

theorem rooted_glue_of_absolute (hrooted : Rooted style base root) (hkind : root.kind ≠ .relative)
    (hbare : ¬ IsBareDrive base) (hcolon : addition.head? ≠ some ':')
    (hplain : BeginsPlain addition) : Rooted style (glue base addition) root := by
  by_cases hle : root.length ≤ base.length
  · exact (base_of_absolute hrooted hkind hbare hle).rooted_glue hcolon hplain
  · -- The root is longer than the base: a home without its separator.
    obtain ⟨user, huser, rfl⟩ := hrooted.eq_home_of_length_lt (Nat.lt_of_not_le hle)
    rw [(Rooted.bareHome huser).unique hrooted]
    exact rooted_glue_home huser addition

/-! ## Joins -/

/-- **A relative addition keeps the root of the base**, in kind and in length. The base is any rooted
path but a bare drive. There are two exceptions: a colon behind the backslash of the current drive,
where the join has no root, and a drive with nothing left behind it in the style in which no drive
stands alone, where the join is relative. -/
theorem classify_join_of_absolute (hroot : Root.classify style base = some root)
    (hkind : root.kind ≠ .relative) (hbare : ¬ IsBareDrive base)
    (haddition : Root.lengthOf style addition = .ok 0)
    (hy : join style (some base) addition = .ok (some y)) :
    (¬ HasMarkedBackslash style root y → ¬ IsStrippedDrive style root y →
      Root.classify style y = some root) ∧
    (HasMarkedBackslash style root y → Root.classify style y = none) ∧
    (IsStrippedDrive style root y → Root.classify style y = some .relative) := by
  obtain ⟨hrelative, hplain, hcolon⟩ := Rooted.of_lengthOf_eq_zero haddition
  rw [join_of_relative (classify_of_rooted hrelative)] at hy
  have hglued : Rooted style (glue base addition) root :=
    rooted_glue_of_absolute (rooted_of_classify hroot) hkind hbare hcolon hplain
  exact classify_normalize_of_absolute hglued hkind hy

/-- A home that stands alone, and the drive that is left with nothing. -/
theorem classify_join_of_home :
    Root.classify .windows "~me".toList = some ⟨.homeNamedUser, 4⟩ ∧
    ¬ IsBareDrive "~me".toList ∧ Root.lengthOf .windows "a".toList = .ok 0 ∧
    join .windows (some "~me".toList) "a".toList = .ok (some "~me\\a".toList) ∧
    Root.classify .windows "~me\\a".toList = some ⟨.homeNamedUser, 4⟩ ∧
    Root.classify .unix "C:a".toList = some ⟨.driveRelative, 2⟩ ∧
    ¬ IsBareDrive "C:a".toList ∧ Root.lengthOf .unix "..".toList = .ok 0 ∧
    join .unix (some "C:a".toList) "..".toList = .ok (some "C:".toList) ∧
    Root.classify .unix "C:".toList = some .relative := by
  have hhome : Root.classify .windows "~me".toList = some ⟨.homeNamedUser, 4⟩ := by decide
  have hnoDrive : ¬ IsBareDrive "~me".toList := by simp [IsBareDrive]
  have hfile : Root.lengthOf .windows "a".toList = .ok 0 := by rfl
  have hjoin : join .windows (some "~me".toList) "a".toList = .ok (some "~me\\a".toList) := by rfl
  have hkept := (classify_join_of_absolute hhome (by decide) hnoDrive hfile hjoin).1
  have hdrive : Root.classify .unix "C:a".toList = some ⟨.driveRelative, 2⟩ := by decide
  have hnotBare : ¬ IsBareDrive "C:a".toList := by simp [IsBareDrive]
  have hup : Root.lengthOf .unix "..".toList = .ok 0 := by rfl
  have hstripped : join .unix (some "C:a".toList) "..".toList = .ok (some "C:".toList) := by rfl
  have hlost := (classify_join_of_absolute hdrive (by decide) hnotBare hup hstripped).2.2
  exact ⟨hhome, hnoDrive, hfile, hjoin,
    hkept (fun h => absurd h.1 (by decide)) (fun h => absurd h.1 (by decide)),
    hdrive, hnotBare, hup, hstripped, hlost ⟨rfl, rfl, rfl⟩⟩

/-- The joins of a base and an addition keep the kind of the root: that of a base without NUL
characters, which has a root, and an addition without NUL characters and colons, which has none. -/
def JoinKeepsKind (style : Style) (base addition : Text) : Prop :=
  ∀ root y, '\x00' ∉ base → '\x00' ∉ addition → ':' ∉ addition →
    Root.classify style base = some root → root.kind ≠ .relative →
    Root.lengthOf style addition = .ok 0 → join style (some base) addition = .ok (some y) →
    (Root.classify style y).map Root.kind = some root.kind

/-- Not every join keeps the kind. A bare drive becomes the root directory of the drive, a drive may
be left with nothing, and a colon behind the backslash of the current drive is malformed. -/
theorem not_joinKeepsKind :
    ¬ JoinKeepsKind .windows "C:".toList "a".toList ∧
    ¬ JoinKeepsKind .unix "C:a".toList "..".toList ∧
    ¬ JoinKeepsKind .windows "/:a".toList "b".toList := by
  refine ⟨fun h => ?_, fun h => ?_, fun h => ?_⟩
  · exact absurd (h ⟨.driveRelative, 2⟩ "C:\\a".toList (by decide) (by decide) (by decide)
      (by decide) (by decide) rfl rfl) (by decide)
  · exact absurd (h ⟨.driveRelative, 2⟩ "C:".toList (by decide) (by decide) (by decide)
      (by decide) (by decide) rfl rfl) (by decide)
  · exact absurd (h .currentDrive "\\:a\\b".toList (by decide) (by decide) (by decide)
      (by decide) (by decide) rfl rfl) (by decide)

end Pathname
