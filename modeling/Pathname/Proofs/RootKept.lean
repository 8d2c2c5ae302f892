import Pathname.Proofs.NormalForm

/-!
# Normal forms keep the root

A normal form begins with the text of its root, but what stands behind the root has changed: a
segment that was hidden behind `.` or `..` comes to stand first, and may be read as a part of
another root. Here are all the ways in which that happens.

- `LosesRoot`: the exceptions.
- `classify_normalize_eq_iff`: a normal form has the root of its text, but for the exceptions.
-/

namespace Pathname

open Segments (Stays)

/-- The ways in which a normal form `y` of a path fails to have the root of the path. -/
inductive LosesRoot (style : Style) (separator : Separator) (root : Root) (y : Text) : Prop where
  /-- A relative path has become one that begins with a home marker. -/
  | homeMarker : root.kind = .relative → y.head? = some '~' → LosesRoot style separator root y
  /-- A relative path has become one that begins with a colon. -/
  | leadingColon : root.kind = .relative → y.head? = some ':' → LosesRoot style separator root y
  /-- A relative path has become one with a colon in second place, and is not a letter and a
  colon alone in the style without bare drives. -/
  | secondColon : root.kind = .relative → y[1]? = some ':' → ¬ IsLetterColon style y →
      LosesRoot style separator root y
  /-- Behind the separator of the current drive, now a backslash, stands a colon. -/
  | backslashColon : root.kind = .currentDrive → separator = .backslash → y[1]? = some ':' →
      LosesRoot style separator root y
  /-- Nothing is left behind a drive, in the style without bare drives. -/
  | bareDrive : root.kind = .driveRelative → style = .unix → y.length = 2 →
      LosesRoot style separator root y

namespace LosesRoot

variable {style : Style} {separator : Separator} {root : Root} {y : Text}

theorem relative_iff (hkind : root.kind = .relative) :
    LosesRoot style separator root y ↔ y.head? = some '~' ∨ y.head? = some ':' ∨
      y[1]? = some ':' ∧ ¬ IsLetterColon style y := by
  constructor
  · intro h
    cases h with
    | homeMarker _ hhome => exact Or.inl hhome
    | leadingColon _ hcolon => exact Or.inr (Or.inl hcolon)
    | secondColon _ hcolon hbare => exact Or.inr (Or.inr ⟨hcolon, hbare⟩)
    | backslashColon hcurrent => rw [hkind] at hcurrent; contradiction
    | bareDrive hdrive => rw [hkind] at hdrive; contradiction
  · rintro (hhome | hcolon | ⟨hcolon, hbare⟩)
    · exact .homeMarker hkind hhome
    · exact .leadingColon hkind hcolon
    · exact .secondColon hkind hcolon hbare

/-- A text with a root in the wanted separator cannot be a normal form that lost that root. -/
theorem not_rooted (hkind : root.kind ≠ .relative) (hunify : separator.unify y = y)
    (h : LosesRoot style separator root y) : ¬ Rooted style y root := by
  intro hrooted
  cases h with
  | homeMarker hrelative => exact hkind hrelative
  | leadingColon hrelative => exact hkind hrelative
  | secondColon hrelative => exact hkind hrelative
  | backslashColon hcurrent hseparator hcolon =>
    obtain ⟨-, s, rest, rfl, -, hslash⟩ := hrooted.eq_cons_of_currentDrive hcurrent
    have hs : separator.char = s.char := by simpa using congrArg List.head? hunify
    have hrest : rest.head? = some ':' := by simpa [List.head?_eq_getElem?] using hcolon
    rw [hslash hrest, hseparator] at hs
    contradiction
  | bareDrive hdrive hunix hlength =>
    obtain ⟨-, letter, rest, rfl, -, -, hbare⟩ := hrooted.eq_cons_of_driveRelative hdrive
    have hrest : rest = [] := List.length_eq_zero_iff.mp (by simpa using hlength)
    have hstyle := hbare hrest
    rw [hunix] at hstyle
    contradiction

end LosesRoot

/-- A text behind the text of a root does not disturb it unless the root is lost. -/
theorem rooted_of_not_losesRoot {style : Style} {separator : Separator} {root : Root}
    {t u : Text} (h : Rooted style t root) (hkind : root.kind ≠ .relative) (hplain : BeginsPlain u)
    (hkept : ¬ LosesRoot style separator root (Normal.rootText separator root t ++ u)) :
    Rooted style (Normal.rootText separator root t ++ u) root := by
  have hlength := Normal.length_rootText separator h
  refine h.rootText_append hkind (fun hcurrent => ⟨hplain, fun hcolon => ?_⟩)
    (fun hdrive => ⟨hplain, fun hnil => ?_⟩)
  · -- Of the two separators only the backslash loses the root.
    cases separator with
    | slash => rfl
    | backslash =>
      have hroot := (h.eq_cons_of_currentDrive hcurrent).1
      have hone : (Normal.rootText .backslash root t).length = 1 := by rw [hlength, hroot]; rfl
      refine absurd (.backslashColon hcurrent rfl ?_) hkept
      rw [List.getElem?_append_right (by omega), hone, ← List.head?_eq_getElem?]
      exact hcolon
  · cases hstyle : style with
    | windows => rfl
    | unix =>
      have hroot := (h.eq_cons_of_driveRelative hdrive).1
      refine absurd (.bareDrive hdrive hstyle ?_) hkept
      rw [hnil, List.append_nil, hlength, hroot]

/-- **Normal forms keep the root, with an exact list of exceptions.** -/
theorem classify_normalize_eq_iff {style : Style} {separator : Separator} {keepEnd : Bool}
    {t y : Text} {root : Root} (hroot : Root.classify style t = some root)
    (hy : normalize style separator keepEnd t = .ok (some y)) :
    Root.classify style y = some root ↔ ¬ LosesRoot style separator root y := by
  obtain ⟨-, root', stack, hrooted, hstack, hform⟩ := normalize_eq_ok_some_iff.mp hy
  obtain rfl : root' = root := Option.some.inj ((classify_of_rooted hrooted).symm.trans hroot)
  have hstays := Segments.stays_of_mem_stack hstack
  have hplain : ∀ ended, BeginsPlain (Segments.write separator ended stack) :=
    fun ended c hc => Segments.not_isSeparator_of_head?_write hstays hc
  rw [classify_eq_some_iff]
  by_cases hkind : root'.kind = .relative
  · -- The normal form is the written stack alone, and is classified by its first two characters.
    obtain rfl := hrooted.eq_relative hkind
    rw [Normal.rootText_relative, List.nil_append] at hform
    rw [Rooted.relative_iff (hform ▸ hplain _), LosesRoot.relative_iff hkind]
    simp only [not_or, not_and, Classical.not_not]
  · have hunify : separator.unify y = y := by
      rw [hform, Separator.unify_append, Normal.unify_rootText, Separator.unify_write _ hstays]
    constructor
    · intro h hlost
      exact hlost.not_rooted hkind hunify h
    · intro hkept
      rw [hform] at hkept ⊢
      exact rooted_of_not_losesRoot hrooted hkind (hplain _) hkept

/-- A home marker that was hidden behind a dot. -/
theorem classify_normalize_hidden_home :
    Root.classify .unix "./~/a".toList = some .relative ∧
    normalize .unix .slash true "./~/a".toList = .ok (some "~/a".toList) ∧
    Root.classify .unix "~/a".toList ≠ some .relative := by
  have hroot : Root.classify .unix "./~/a".toList = some .relative := by decide
  have hnormal : normalize .unix .slash true "./~/a".toList = .ok (some "~/a".toList) := by rfl
  refine ⟨hroot, hnormal, fun hkept => ?_⟩
  exact (classify_normalize_eq_iff hroot hnormal).mp hkept (.homeMarker rfl rfl)

end Pathname
