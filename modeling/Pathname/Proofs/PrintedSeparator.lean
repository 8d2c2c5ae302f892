import Pathname.Proofs.NormalForm
import Pathname.Proofs.ReadBack
import Pathname.Transform

/-!
# The separator of a normal form is a matter of print

Which separator a normal form is written with has no part in finding it, and neither has the
style. The style does move one root: a letter and a colon alone are a drive in one style and a
name in the other. Both readings have the same normal form, the text itself.

- `Rooted.of_style`: what one style reads as a root, the other one does too, with that exception.
- `normalize_eq_map_unify`: any normal form of a text, from any other one.
- `style_decides_only_separator`: **the main statement**.
-/

namespace Pathname

open Segments (IsPlain Stays)

variable {style : Style} {keepEnd : Bool} {root : Root} {t : Text}

/-! ## Roots in two styles -/

/-- Styles see different roots at most in a letter and a colon alone. -/
theorem Rooted.of_style (h : Rooted style t root) (other : Style) :
    Rooted other t root ∨ ∃ letter : Char, letter.isAlpha = true ∧ t = [letter, ':'] := by
  cases h with
  | empty => exact Or.inl Rooted.empty
  | relative hcolon hhome hsep hdrive => exact Or.inl (Rooted.relative hcolon hhome hsep hdrive)
  | @letterColon letter hletter _ => exact Or.inr ⟨letter, hletter, rfl⟩
  | currentDrive hplain hslash => exact Or.inl (Rooted.currentDrive hplain hslash)
  | @driveRelative letter rest hletter hplain _ =>
    -- Behind the colon something has to follow for all styles to agree.
    cases rest with
    | nil => exact Or.inr ⟨letter, hletter, rfl⟩
    | cons c more => exact Or.inl (Rooted.driveRelative hletter hplain (fun h => nomatch h))
  | driveAbsolute hletter => exact Or.inl (Rooted.driveAbsolute hletter)
  | server hne hplain hvalid => exact Or.inl (Rooted.server hne hplain hvalid)
  | home hplain => exact Or.inl (Rooted.home hplain)
  | bareHome hplain => exact Or.inl (Rooted.bareHome hplain)

/-- A letter and a colon alone are their own normal form, as a drive and as a name. -/
theorem normalize_letterColon (style : Style) (separator : Separator) (keepEnd : Bool)
    {letter : Char} (hletter : letter.isAlpha = true) :
    normalize style separator keepEnd [letter, ':'] = .ok (some [letter, ':']) := by
  have hsep : isSeparator letter = false := not_isSeparator_of_isAlpha hletter
  have hnul : '\x00' ∉ [letter, ':'] := by
    have hne : letter ≠ '\x00' := by
      rintro rfl
      contradiction
    simp [hne.symm]
  cases hstyle : style.hasBareDrives with
  | true =>
    -- The drive is all root, and nothing is on the stack.
    have hroot : Rooted style [letter, ':'] ⟨.driveRelative, 2⟩ :=
      Rooted.driveRelative hletter beginsPlain_nil (fun _ => hstyle)
    rw [normalize_of_stack hnul hroot Segments.resolve?_singleton_nil,
      Normal.rootText_driveRelative hletter, Segments.write_nil, List.append_nil]
  | false =>
    -- The name is the one segment of a relative path.
    have hroot : Rooted style [letter, ':'] .relative := Rooted.letterColon hletter hstyle
    have hplain : IsPlain [letter, ':'] := by simp [IsPlain, hsep]
    have hsegments : Segments.ofText .relative [letter, ':'] = [[letter, ':']] :=
      Text.pieces_eq_singleton hplain
    have hstep : Normal.isStep [letter, ':'] = false := by simp [Normal.isStep]
    have hread : Segments.resolve? [] (Segments.ofText .relative [letter, ':']) =
        some [[letter, ':']] := by
      rw [hsegments, Segments.resolve?_cons [] (Segments.push?_of_noStep hstep)]
      rfl
    rw [normalize_of_stack hnul hroot hread, Normal.rootText_relative, hsegments]
    simp [Segments.write, Segments.endInStep, hstep]

/-! ## Normal forms in two separators -/

theorem Segments.normalForm_eq_map_unify (target source : Separator) :
    normalForm target keepEnd root t = (normalForm source keepEnd root t).map target.unify := by
  unfold normalForm
  cases hstack : resolve? [] (ofText root t) with
  | none => rfl
  | some stack =>
    have hwrite : ∀ ended, target.unify (write source ended stack) = write target ended stack :=
      fun _ => target.unify_write (stays_of_mem_stack hstack)
    simp only [Option.map_some, Separator.unify_append, Normal.unify_rootText, hwrite]

/-- **Any normal form of a text is any other one with its separators replaced**, and where there
is none, or only an error, that is so in every style and for every separator. -/
theorem normalize_eq_map_unify (s₁ s₂ : Style) (target source : Separator) (keepEnd : Bool)
    (t : Text) :
    normalize s₁ target keepEnd t =
      (normalize s₂ source keepEnd t).map (Option.map target.unify) := by
  by_cases hnul : '\x00' ∈ t
  · rw [normalize_of_nul hnul, normalize_of_nul hnul]
    rfl
  by_cases hletter : ∃ letter : Char, letter.isAlpha = true ∧ t = [letter, ':']
  · obtain ⟨letter, hletter, rfl⟩ := hletter
    have hplain : target.unify [letter, ':'] = [letter, ':'] := by
      simp [not_isSeparator_of_isAlpha hletter]
    rw [normalize_letterColon _ _ _ hletter, normalize_letterColon _ _ _ hletter]
    show _ = Except.ok (some (target.unify [letter, ':']))
    rw [hplain]
  -- Any other text has one root in all styles, or none.
  cases hroot : Root.classify s₂ t with
  | none =>
    have hother : Root.classify s₁ t = none := by
      rw [Option.eq_none_iff_forall_ne_some]
      intro root hsome
      have hrooted := ((rooted_of_classify hsome).of_style s₂).resolve_right hletter
      exact absurd ((classify_of_rooted hrooted).symm.trans hroot) (Option.some_ne_none root)
    rw [normalize_of_malformed hnul hroot, normalize_of_malformed hnul hother]
    rfl
  | some root =>
    have hrooted := rooted_of_classify hroot
    have hother := (hrooted.of_style s₁).resolve_right hletter
    rw [normalize_of_rooted hnul hrooted, normalize_of_rooted hnul hother,
      Segments.normalForm_eq_map_unify target source]
    rfl

/-- **The style and the choice of a separator decide nothing but the separator that is written.**
The normal form in backslashes, in one style, is the normal form in slashes, in any other, with
its separators replaced; the one is absent where the other is, and each error of the one is an
error of the other. Without a choice the separator is that of the style. -/
theorem style_decides_only_separator (t : Text) (keepEnd : Bool) (s₁ s₂ s₃ style : Style) :
    (Transform.normalize (some .backslash) keepEnd).apply s₁ (some t) =
      (Transform.normalize (some .slash) keepEnd).apply s₂ (some t) >>=
        (Transform.unify (some .backslash)).apply s₃ ∧
    (∀ e, (Transform.normalize (some .backslash) keepEnd).apply s₁ (some t) = .error e ↔
      (Transform.normalize (some .slash) keepEnd).apply s₂ (some t) = .error e) ∧
    (Transform.normalize none keepEnd).apply style (some t) =
      (Transform.normalize (some (.ofIsSlash (style == .unix))) keepEnd).apply style (some t) := by
  have hunify : normalize s₁ .backslash keepEnd t =
      (normalize s₂ .slash keepEnd t).map (Option.map Separator.backslash.unify) :=
    normalize_eq_map_unify s₁ s₂ .backslash .slash keepEnd t
  refine ⟨?_, ?_, ?_⟩
  · show normalize s₁ .backslash keepEnd t = normalize s₂ .slash keepEnd t >>= _
    rw [hunify]
    cases normalize s₂ .slash keepEnd t with
    | error e => rfl
    | ok answer => cases answer <;> rfl
  · intro e
    show normalize s₁ .backslash keepEnd t = .error e ↔ normalize s₂ .slash keepEnd t = .error e
    rw [hunify]
    cases normalize s₂ .slash keepEnd t <;> simp [Except.map]
  · cases style <;> rfl

end Pathname
