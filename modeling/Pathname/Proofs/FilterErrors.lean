import Pathname.Proofs.EqualityInNormalForm
import Pathname.Proofs.NameFaults

/-!
# Errors of a filter

The only error of a filter is a NUL character. The two criteria that read the structure of a path, its
extension and its normal form, can find one, and the others never look for it. A filter for extensions
rejects a path that it cannot read, and it reads the root first, so that a NUL character behind a
malformed root is no error for it.

- `Criterion.Refuses`: which criterion refuses which path, and with what error.
- `Criterion.accepts_eq_error_iff`: these are all the errors there are.
- `Criterion.accepts_of_nul`: **the main statement**.
- `Criterion.not_refuses_every_nul`: the reading that fails.
-/

namespace Pathname.Criterion

variable {style : Style} {t path : Text} {wanted : List Text} {fault : Fault} {e : PathError}
  {criterion : Criterion} {policy : CasePolicy}

/-! ## Refusals -/

/-- The errors with which a criterion refuses the path `t`. -/
inductive Refuses (style : Style) (t : Text) : Criterion → PathError → Prop where
  /-- The extension is asked for, the root is good, and there is a NUL character in the path. -/
  | extension {wanted : List Text} : Root.classify style t ≠ none → '\x00' ∈ t →
      Refuses style t (.extensions wanted) ⟨.nulCharacter, t⟩
  /-- The normal form is asked for, and there is a NUL character in the path. -/
  | normalForm {path : Text} {policy : CasePolicy} : '\x00' ∈ t →
      Refuses style t (.samePath path true policy) ⟨.nulCharacter, t⟩
  /-- The path has a normal form, and there is a NUL character in the path that it is compared
  with. -/
  | comparedWith {path form : Text} {policy : CasePolicy} :
      normalize style style.separator true t = .ok (some form) → '\x00' ∈ path →
      Refuses style t (.samePath path true policy) ⟨.nulCharacter, path⟩

/-! ## Filters for extensions -/

/-- Of the faults in the way of an extension a filter only reports the NUL character. -/
theorem acceptsExtension_of_nameFault (h : NameFault style t fault) :
    acceptsExtension style wanted t =
      if fault = .nulCharacter then .error ⟨.nulCharacter, t⟩ else .ok false := by
  rw [acceptsExtension, h.fail.2]
  cases h with
  | malformed => rfl
  | nul => rfl
  | stream => rfl

theorem acceptsExtension_eq_error_iff :
    acceptsExtension style wanted t = .error e ↔
      NameFault style t .nulCharacter ∧ e = ⟨.nulCharacter, t⟩ := by
  constructor
  · intro h
    by_cases hfault : ∃ fault, NameFault style t fault
    · obtain ⟨fault, hfault⟩ := hfault
      rw [acceptsExtension_of_nameFault hfault] at h
      split at h
      · rename_i hnul
        exact ⟨hnul ▸ hfault, (Except.error.inj h).symm⟩
      · contradiction
    · -- Nothing is in the way, so there is an extension and a verdict on it.
      obtain ⟨-, found, -, hfound⟩ := exists_of_not_nameFault (not_exists.mp hfault)
      simp [acceptsExtension, hfound] at h
  · rintro ⟨hfault, rfl⟩
    rw [acceptsExtension_of_nameFault hfault, if_pos rfl]

/-! ## All filters -/

/-- **The errors of a filter are its refusals.** -/
theorem accepts_eq_error_iff :
    criterion.accepts style t = .error e ↔ Refuses style t criterion e := by
  cases criterion with
  | glob pattern policy =>
    -- A pattern is matched against any text.
    apply iff_of_false
    · simp [accepts]
    · rintro ⟨⟩
  | insideDirectory directory policy =>
    apply iff_of_false
    · simp [accepts]
    · rintro ⟨⟩
  | extensions wanted =>
    rw [accepts, acceptsExtension_eq_error_iff]
    constructor
    · rintro ⟨hfault, rfl⟩
      cases hfault with
      | nul hroot hnul => exact .extension hroot hnul
    · intro h
      cases h with
      | extension hroot hnul => exact ⟨.nul hroot hnul, rfl⟩
  | samePath path inNormalForm policy =>
    cases inNormalForm with
    | false =>
      -- Paths that are compared as they stand always have a verdict.
      apply iff_of_false
      · simp [accepts, pathsEqual]
      · rintro ⟨⟩
    | true =>
      rw [accepts, pathsEqual_inNormalForm_error_iff]
      constructor
      · rintro (⟨hnul, rfl⟩ | ⟨⟨form, hform⟩, hnul, rfl⟩)
        · exact .normalForm hnul
        · exact .comparedWith hform hnul
      · intro h
        cases h with
        | normalForm hnul => exact Or.inl ⟨hnul, rfl⟩
        | comparedWith hform hnul => exact Or.inr ⟨⟨_, hform⟩, hnul, rfl⟩

/-- **What filters make of a NUL character.** A filter for extensions refuses a path with a NUL
character exactly if the root of the path is not malformed; else it rejects the path, whatever
extensions are wanted. A filter for an equal path in normal form always refuses it, whatever the other
path is. Both errors carry the whole path. -/
theorem accepts_of_nul (style : Style) (hnul : '\x00' ∈ t) :
    (∀ wanted, Root.classify style t ≠ none →
      (extensions wanted).accepts style t = .error ⟨.nulCharacter, t⟩) ∧
    (∀ wanted, Root.classify style t = none → (extensions wanted).accepts style t = .ok false) ∧
    ∀ path policy, (samePath path true policy).accepts style t = .error ⟨.nulCharacter, t⟩ := by
  refine ⟨fun wanted hroot => ?extension, fun wanted hroot => ?malformed, fun path policy => ?same⟩
  case extension =>
    exact accepts_eq_error_iff.mpr (.extension hroot hnul)
  case malformed =>
    -- The malformed root is found before the NUL character, and is no error for the filter.
    exact acceptsExtension_of_malformed hroot
  case same =>
    exact accepts_eq_error_iff.mpr (.normalForm hnul)

/-- A NUL character in a name that opens a stream, and one behind a malformed root. -/
theorem accepts_of_nul_in_stream :
    '\x00' ∈ "ab:\x00.txt".toList ∧ Root.classify .windows "ab:\x00.txt".toList ≠ none ∧
    (extensions ["txt".toList]).accepts .windows "ab:\x00.txt".toList =
      .error ⟨.nulCharacter, "ab:\x00.txt".toList⟩ ∧
    '\x00' ∈ ":\x00".toList ∧ Root.classify .unix ":\x00".toList = none ∧
    (extensions []).accepts .unix ":\x00".toList = .ok false ∧
    (samePath "..".toList true .system).accepts .unix ":\x00".toList =
      .error ⟨.nulCharacter, ":\x00".toList⟩ := by
  have hstream : '\x00' ∈ "ab:\x00.txt".toList := by decide
  have hrooted : Root.classify .windows "ab:\x00.txt".toList ≠ none := by decide
  have hcolon : '\x00' ∈ ":\x00".toList := by decide
  have hmalformed : Root.classify .unix ":\x00".toList = none := by decide
  obtain ⟨hrefused, -, -⟩ := accepts_of_nul .windows hstream
  obtain ⟨-, hrejected, hsame⟩ := accepts_of_nul .unix hcolon
  exact ⟨hstream, hrooted, hrefused _ hrooted, hcolon, hmalformed, hrejected _ hmalformed,
    hsame _ _⟩

/-- Not every NUL character is refused: behind a malformed root the filter for extensions does not
see it. -/
theorem not_refuses_every_nul :
    ¬ ∀ (style : Style) (wanted : List Text) (path t : Text) (policy : CasePolicy), '\x00' ∈ t →
      (∃ found, (extensions wanted).accepts style t = .error ⟨.nulCharacter, found⟩) ∧
        ∃ found, (samePath path true policy).accepts style t = .error ⟨.nulCharacter, found⟩ := by
  intro h
  have hunseen : (extensions ["txt".toList]).accepts .unix ":\x00".toList = .ok false := by rfl
  obtain ⟨⟨found, herror⟩, -⟩ := h .unix ["txt".toList] [] ":\x00".toList .system (by decide)
  rw [hunseen] at herror
  contradiction

end Pathname.Criterion
