import Mathlib.Data.Char
import Mathlib.Data.List.Lex
import Mathlib.Data.List.Sort
import Pathname.Error
import Pathname.NameFilter
import Pathname.Proofs.Quotation
import Pathname.Unicode.Hidden

/-!
# Messages are unambiguous

The message of a path error shows the text in which the fault was found, and the description of a filter
for extensions shows the extensions. Both are read by people, often in a log: what they show must not
break the line or hide in it, and two different paths, or two different sets of extensions, must not
look the same.

## Architecture

- `PathError.isPrintable_of_mem_message`: the wording of a fault and the quoted path are printable, and
  so is the message.
- `PathError.message_eq_iff`: behind the same wording, the quoted path tells which path it was.
- `Criterion.ascending_eq_iff`: wanted extensions are shown in ascending order, each of them once, so
  that the order is that of the set (`Criterion.describe_extensions_eq_iff`).

**Main statement**: `diagnostics_unambiguous`.
-/

namespace Pathname

/-! ## Messages of path errors -/

namespace PathError

variable {fault : Fault} {path other : Text}

/-- The faults whose wording is fixed: all but those in the words of the reporter. -/
def fixedFaults : List Fault := [.unparseableRoot, .nulCharacter, .streamMarker]

/-- The fixed wordings are ASCII. -/
theorem all_ascii_reason (hfault : fault ∈ fixedFaults) :
    fault.reason.all Unicode.isAscii = true := by
  -- The literals are lists of characters before anything is decided.
  unfold Fault.reason
  cases fault with
  | unparseableRoot | streamMarker =>
    rw [String.toList_ofList]
    decide
  | nulCharacter =>
    rw [String.toList_append, String.toList_ofList, String.toList_ofList, List.all_append,
      Bool.and_eq_true]
    constructor <;> decide
  | other reason => simp [fixedFaults] at hfault

theorem isPrintable_of_mem_message (hfault : fault ∈ fixedFaults) {c : Char}
    (hc : c ∈ (PathError.mk fault path).message) : Unicode.isPrintable c = true := by
  rw [message, List.mem_append, List.mem_append] at hc
  rcases hc with (hreason | hbetween) | hquoted
  · exact Unicode.isPrintable_of_all_ascii (all_ascii_reason hfault) hreason
  · exact Unicode.isPrintable_of_all_ascii (by decide) hbetween
  · exact isPrintable_of_mem_quote hquoted

/-- The message of a fault tells in which path it was found. -/
theorem message_eq_iff :
    (PathError.mk fault path).message = (PathError.mk fault other).message ↔ path = other := by
  constructor
  · intro h
    have hquoted : quote path ++ [] = quote other ++ [] := by
      simpa [message] using h
    exact (quote_append_inj hquoted).1
  · rintro rfl
    rfl

end PathError

/-! ## Lists in ascending order -/

namespace Criterion

variable {t u : Text} {ts : List Text}

theorem mem_insertAscending : u ∈ insertAscending t ts ↔ u = t ∨ u ∈ ts := by
  induction ts with
  | nil => simp [insertAscending]
  | cons first rest ih =>
    unfold insertAscending
    split
    · rename_i heq
      simp [heq]
    · split
      · simp
      · simp only [List.mem_cons, ih, or_left_comm]

theorem mem_ascending : u ∈ ascending ts ↔ u ∈ ts := by
  induction ts with
  | nil => simp [ascending]
  | cons t rest ih =>
    rw [ascending, List.foldr_cons, mem_insertAscending, List.mem_cons, ← ih]
    rfl

theorem pairwise_insertAscending (h : ts.Pairwise (· < ·)) (t : Text) :
    (insertAscending t ts).Pairwise (· < ·) := by
  induction ts with
  | nil => simp [insertAscending]
  | cons first rest ih =>
    obtain ⟨hfirst, hrest⟩ := List.pairwise_cons.mp h
    unfold insertAscending
    split
    · exact h
    · rename_i hne
      split
      · rename_i hless
        -- The new first text is below the old one, and that one is below all others.
        refine List.pairwise_cons.mpr ⟨fun u hu => ?_, h⟩
        rcases List.mem_cons.mp hu with rfl | hu
        · exact hless
        · exact lt_trans hless (hfirst u hu)
      · rename_i hnot
        refine List.pairwise_cons.mpr ⟨fun u hu => ?_, ih hrest⟩
        rcases mem_insertAscending.mp hu with rfl | hu
        · exact lt_of_le_of_ne (not_lt.mp hnot) (Ne.symm hne)
        · exact hfirst u hu

theorem pairwise_ascending (ts : List Text) : (ascending ts).Pairwise (· < ·) := by
  induction ts with
  | nil => exact .nil
  | cons t rest ih => exact pairwise_insertAscending ih t

/-- **A list in ascending order is that of its members**, whatever their order and number. -/
theorem ascending_eq_iff {us : List Text} : ascending ts = ascending us ↔ ∀ t, t ∈ ts ↔ t ∈ us := by
  constructor
  · intro h t
    rw [← mem_ascending, h, mem_ascending]
  · intro h
    apply (pairwise_ascending ts).eq_of_mem_iff (pairwise_ascending us)
    intro t
    rw [mem_ascending, mem_ascending, h]

theorem describe_extensions (ts : List Text) :
    (extensions ts).describe =
      "HasExtension(extensions=".toList ++ (quoteList (ascending ts) ++ ")".toList) :=
  List.append_assoc ..

/-- The text of a filter for extensions tells which ones are wanted. -/
theorem describe_extensions_eq_iff {us : List Text} :
    (extensions ts).describe = (extensions us).describe ↔ ∀ t, t ∈ ts ↔ t ∈ us := by
  rw [describe_extensions, describe_extensions, List.append_right_inj, List.append_left_inj,
    quoteList_inj, ascending_eq_iff]

end Criterion

/-! ## Main statement -/

/-- **Messages and descriptions are unambiguous.** The message of a fault with a fixed wording has
neither control nor format characters, and every one of its characters is printable; two messages of
one fault are equal for equal paths only; and two filters for extensions are described by one text
exactly when they want the same set of extensions. -/
theorem diagnostics_unambiguous :
    (∀ fault ∈ PathError.fixedFaults, ∀ path : Text,
      (∀ c ∈ (PathError.mk fault path).message,
        Unicode.isPrintable c = true ∧ Unicode.isHidden c = false) ∧
      ∀ other : Text,
        (PathError.mk fault path).message = (PathError.mk fault other).message → path = other) ∧
    ∀ wanted others : List Text,
      (Criterion.extensions wanted).describe = (Criterion.extensions others).describe ↔
        ∀ ext, ext ∈ wanted ↔ ext ∈ others := by
  refine ⟨fun fault hfault path => ⟨fun c hc => ?_, fun other h => ?_⟩, fun wanted others => ?_⟩
  · have hprintable := PathError.isPrintable_of_mem_message hfault hc
    exact ⟨hprintable, Unicode.isHidden_of_isPrintable hprintable⟩
  · exact PathError.message_eq_iff.mp h
  · exact Criterion.describe_extensions_eq_iff

/-- A line break is shown by a backslash and a letter, but not as these two characters are. Extensions
that are given twice, or in another order, are described by the same text. -/
theorem diagnostics_unambiguous_of_line_break :
    Fault.unparseableRoot ∈ PathError.fixedFaults ∧
    '\\' ∈ (PathError.mk .unparseableRoot ['\n']).message ∧
    Unicode.isHidden '\\' = false ∧
    (PathError.mk .unparseableRoot ['\n']).message ≠
      (PathError.mk .unparseableRoot ['\\', 'n']).message ∧
    (Criterion.extensions [['\x27'], ['\x22'], ['\x27']]).describe =
      (Criterion.extensions [['\x22'], ['\x27']]).describe := by
  have hfault : Fault.unparseableRoot ∈ PathError.fixedFaults := by decide
  have hshown : '\\' ∈ (PathError.mk .unparseableRoot ['\n']).message := by
    rw [PathError.message, List.mem_append]
    exact .inr (by decide)
  obtain ⟨hhidden, hpath⟩ := diagnostics_unambiguous.1 _ hfault ['\n']
  refine ⟨hfault, hshown, (hhidden _ hshown).2, fun h => ?_, ?_⟩
  · exact absurd (hpath ['\\', 'n'] h) (by decide)
  · apply (diagnostics_unambiguous.2 _ _).mpr
    intro ext
    simp [or_comm, or_left_comm]

end Pathname
