import Pathname.NameFilter

/-!
# Two tests for an extension

Whether a path has one of several extensions can be asked directly (`hasExtension`), and it can be
asked of a filter (`Criterion.extensions`). The direct test may refuse a path, and where no
extension is wanted it looks for a dot without reading the root. The filter always reads the root,
and rejects what it cannot read; where no extension is wanted it compares the text of the extension
with the empty text.

- `hasExtension_of_ne_nil`, `hasExtension_nil`: what the direct test reads.
- `Criterion.acceptsExtension_of_malformed`: a path with a malformed root never passes the filter.
- `accepts_extensions_of_hasExtension`: **the main statement**, the filter repeats the verdicts of
  the direct test.
-/

namespace Pathname

variable {style : Style} {root : Root} {t found : Text} {wanted : List Text} {dot : Option Nat}
  {verdict : Bool} {i : Nat}

/-! ## The text of an extension -/

/-- What follows the dot before an extension; nothing, if there is no such dot. -/
def textAfterDot (t : Text) : Option Nat → Text
  | none => []
  | some i => t.drop (i + 1)

theorem extension_of_extensionDot? (hroot : Root.classify style t = some root)
    (hnul : '\x00' ∉ t) (hdot : extensionDot? style t = .ok dot) :
    extension style t = .ok (textAfterDot t dot) := by
  rw [extension, Root.ofText_eq_ok_iff.mpr hroot, rejectNul_of_not_mem hnul]
  show (extensionDot? style t >>= fun dot => _) = _
  rw [hdot]
  cases dot <;> rfl

theorem extension_of_malformed (hroot : Root.classify style t = none) :
    extension style t = .error ⟨.unparseableRoot, t⟩ := by
  rw [extension, Root.ofText, hroot]
  rfl

theorem lastDot?_of_extensionDot? (hdot : extensionDot? style t = .ok dot) :
    lastDot? t = dot := by
  unfold extensionDot? at hdot
  split at hdot
  · contradiction
  · exact Except.ok.inj hdot

/-- Nothing follows the last dot of a file name exactly if the path ends in it. -/
theorem drop_lastDot?_eq_nil_iff (hi : lastDot? t = some i) :
    t.drop (i + 1) = [] ↔ t.getLast? = some '.' := by
  obtain ⟨hlast, -⟩ := Option.filter_eq_some_iff.mp hi
  obtain ⟨before, c, after, rfl, rfl, hc, hafter⟩ := Text.eq_append_of_lastIndex? hlast
  have hdrop : (before ++ c :: after).drop (before.length + 1) = after := by
    rw [List.drop_length_add_append]
    rfl
  rw [hdrop]
  constructor
  · rintro rfl
    rw [List.getLast?_concat, eq_of_beq hc]
  · intro hend
    -- A character behind the last dot would be the end of the path, and is no dot.
    cases hlast : after.getLast? with
    | none => exact List.getLast?_eq_none_iff.mp hlast
    | some d =>
      rw [List.getLast?_append, List.getLast?_cons, hlast] at hend
      obtain rfl : d = '.' := Option.some.inj hend
      have hno := hafter '.' (List.mem_of_getLast? hlast)
      exact absurd hno (by decide)

/-- Unless a path ends in a dot, its extension is empty exactly if there is no dot before one. -/
theorem textAfterDot_isEmpty (hdot : lastDot? t = dot) (hend : t.getLast? ≠ some '.') :
    (textAfterDot t dot).isEmpty = dot.isNone := by
  cases dot with
  | none => rfl
  | some i =>
    have hne := mt (drop_lastDot?_eq_nil_iff hdot).mp hend
    exact List.isEmpty_eq_false_iff.mpr hne

/-! ## The direct test -/

theorem not_nul_of_hasExtension (h : hasExtension style wanted t = .ok verdict) : '\x00' ∉ t := by
  intro hnul
  rw [hasExtension, rejectNul_of_mem hnul] at h
  contradiction

theorem hasExtension_of_ne_nil (hwanted : wanted ≠ []) (hnul : '\x00' ∉ t) :
    hasExtension style wanted t = (extension style t).map wanted.contains := by
  have hempty : ¬ wanted.isEmpty = true := mt List.isEmpty_iff.mp hwanted
  rw [hasExtension, rejectNul_of_not_mem hnul]
  show (if wanted.isEmpty then _ else extension style t >>= fun found => pure _) = _
  rw [if_neg hempty]
  cases extension style t <;> rfl

theorem hasExtension_nil (hnul : '\x00' ∉ t) :
    hasExtension style [] t = (extensionDot? style t).map Option.isNone := by
  rw [hasExtension, rejectNul_of_not_mem hnul]
  show (extensionDot? style t >>= fun dot => pure _) = _
  cases extensionDot? style t <;> rfl

/-! ## The filter -/

namespace Criterion

theorem acceptsExtension_of_malformed (hroot : Root.classify style t = none) :
    acceptsExtension style wanted t = .ok false := by
  rw [acceptsExtension, extension_of_malformed hroot]

theorem acceptsExtension_of_extension (hwanted : wanted ≠ [])
    (hfound : extension style t = .ok found) :
    acceptsExtension style wanted t = .ok (wanted.contains found) := by
  have hempty : wanted.isEmpty = false := List.isEmpty_eq_false_iff.mpr hwanted
  simp only [acceptsExtension, hfound, hempty, Bool.false_eq_true, if_false]

theorem acceptsExtension_nil (hroot : Root.classify style t = some root) (hnul : '\x00' ∉ t)
    (hdot : extensionDot? style t = .ok dot) :
    acceptsExtension style [] t = .ok (textAfterDot t dot).isEmpty := by
  rw [acceptsExtension, extension_of_extensionDot? hroot hnul hdot]
  rfl

end Criterion

/-- **The filter repeats the verdicts of the direct test.** Where some extensions are wanted, the
two agree on every path for which there is a direct verdict. Where none are wanted, the filter
rejects a path with a malformed root, whatever the direct verdict; on any other path the two agree,
unless it ends in a dot. -/
theorem accepts_extensions_of_hasExtension (h : hasExtension style wanted t = .ok verdict) :
    (wanted ≠ [] → (Criterion.extensions wanted).accepts style t = .ok verdict) ∧
    (wanted = [] → Root.classify style t = none →
      (Criterion.extensions wanted).accepts style t = .ok false) ∧
    (wanted = [] → Root.classify style t ≠ none → t.getLast? ≠ some '.' →
      (Criterion.extensions wanted).accepts style t = .ok verdict) := by
  have hnul := not_nul_of_hasExtension h
  refine ⟨?some, ?malformed, ?none⟩
  case some =>
    intro hwanted
    rw [hasExtension_of_ne_nil hwanted hnul] at h
    obtain ⟨found, hfound, rfl⟩ := exists_of_map_eq_ok h
    exact Criterion.acceptsExtension_of_extension hwanted hfound
  case malformed =>
    intro _ hroot
    exact Criterion.acceptsExtension_of_malformed hroot
  case none =>
    intro hwanted hroot hend
    subst hwanted
    obtain ⟨root, hroot⟩ := Option.ne_none_iff_exists'.mp hroot
    rw [hasExtension_nil hnul] at h
    obtain ⟨dot, hdot, rfl⟩ := exists_of_map_eq_ok h
    have hlast := lastDot?_of_extensionDot? hdot
    rw [← textAfterDot_isEmpty hlast hend]
    exact Criterion.acceptsExtension_nil hroot hnul hdot

/-- A wanted extension, a path with a malformed root, and a path without an extension. -/
theorem accepts_extensions_of_verdicts :
    hasExtension .unix ["txt".toList] "a.txt".toList = .ok true ∧
    (Criterion.extensions ["txt".toList]).accepts .unix "a.txt".toList = .ok true ∧
    hasExtension .unix [] ":a".toList = .ok true ∧
    (Criterion.extensions []).accepts .unix ":a".toList = .ok false ∧
    hasExtension .unix [] "a.b/c".toList = .ok true ∧
    (Criterion.extensions []).accepts .unix "a.b/c".toList = .ok true := by
  have hwanted : hasExtension .unix ["txt".toList] "a.txt".toList = .ok true := by rfl
  have hmalformed : hasExtension .unix [] ":a".toList = .ok true := by rfl
  have hnone : hasExtension .unix [] "a.b/c".toList = .ok true := by rfl
  have haccepts := (accepts_extensions_of_hasExtension hwanted).1 (by decide)
  have hrejects := (accepts_extensions_of_hasExtension hmalformed).2.1 rfl (by decide)
  have hbare := (accepts_extensions_of_hasExtension hnone).2.2 rfl (by decide) (by decide)
  exact ⟨hwanted, haccepts, hmalformed, hrejects, hnone, hbare⟩

/-- The filter does not repeat every direct verdict: the root of `:a` is malformed. -/
theorem not_accepts_extensions_iff_hasExtension :
    ¬ ∀ (style : Style) (wanted : List Text) (t : Text) (verdict : Bool),
      hasExtension style wanted t = .ok verdict →
        (Criterion.extensions wanted).accepts style t = .ok verdict := by
  intro hall
  have hdirect : hasExtension .unix [] ":a".toList = .ok true := by rfl
  have hfilter : (Criterion.extensions []).accepts .unix ":a".toList = .ok false := by rfl
  have haccepts := hall .unix [] ":a".toList true hdirect
  rw [hfilter, Except.ok.injEq] at haccepts
  contradiction

end Pathname
