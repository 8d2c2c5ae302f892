import Pathname.Proofs.NormalForm
import Pathname.Proofs.ReadBack

/-!
# Normal forms are their own normal forms

A normal form is the text of a root with a written stack behind it. Where it is read with that
root again, its segments give the same stack, and it is written as it was.

The root has to stay, at least in kind: a home marker or a drive that stands first only after the
segments before it have been dropped is a root of its own, and the next run reads it as one.

- `normalize_rootText_append_write`: the normal form of a written text.
- `mem_of_mem_normalize`: a normal form holds no characters of its own but separators.
- `normalize_normalize_of_kind_eq`: **the main statement**.
-/

namespace Pathname

open Segments (Stays)

variable {style : Style} {separator : Separator} {keepEnd ended : Bool} {root : Root}
  {t : Text} {stack : List Text}

/-! ## Reading a written text -/

namespace Normal

theorem drop_rootText_append (h : Rooted style t root) (u : Text) :
    (rootText separator root t ++ u).drop root.length = u :=
  List.drop_left' (length_rootText separator h)

/-- The text of a root is left alone by whoever reads it with that root. -/
theorem rootText_rootText_append (h : Rooted style t root) (u : Text) :
    rootText separator root (rootText separator root t ++ u) = rootText separator root t := by
  have hlength := length_rootText separator h
  have hle : root.length ≤ (rootText separator root t ++ u).length := by
    rw [List.length_append]
    omega
  rw [rootText_of_le hle, List.take_left' hlength, unify_rootText]

end Normal

/-- A separator at the end is read back where it is written, and an empty stack has none. -/
private theorem write_read_end :
    Segments.write separator (keepEnd && (ended || stack.isEmpty)) stack =
      Segments.write separator (keepEnd && ended) stack := by
  cases stack with
  | nil => rw [Segments.write_nil, Segments.write_nil]
  | cons top below => rw [List.isEmpty_cons, Bool.or_false]

theorem normalize_rootText_append_write (h : Rooted style t root) (hstack : ∀ s ∈ stack, Stays s)
    (hagain : Rooted style (Normal.rootText separator root t ++
      Segments.write separator ended stack) root)
    (hnul : '\x00' ∉ Normal.rootText separator root t ++ Segments.write separator ended stack) :
    normalize style separator keepEnd
        (Normal.rootText separator root t ++ Segments.write separator ended stack) =
      .ok (some (Normal.rootText separator root t ++
        Segments.write separator (keepEnd && ended) stack)) := by
  have hsegments : Segments.ofText root (Normal.rootText separator root t ++
      Segments.write separator ended stack) =
        Text.pieces isSeparator (Segments.write separator ended stack) := by
    rw [Segments.ofText, Normal.drop_rootText_append h]
  have hread : Segments.resolve? [] (Segments.ofText root (Normal.rootText separator root t ++
      Segments.write separator ended stack)) = some stack := by
    rw [hsegments, Segments.resolve?_pieces_write hstack, List.append_nil]
  rw [normalize_of_stack hnul hagain hread, Normal.rootText_rootText_append h, hsegments,
    Segments.endInStep_pieces_write hstack, write_read_end]

/-! ## Characters of a normal form -/

theorem Separator.mem_of_mem_unify {c : Char} (hc : c ∈ separator.unify t)
    (hplain : isSeparator c = false) : c ∈ t := by
  obtain ⟨d, hd, hdc⟩ := List.mem_map.mp hc
  split at hdc
  · -- A character that was put in is a separator.
    rw [← hdc, isSeparator_char] at hplain
    exact absurd hplain Bool.noConfusion
  · exact hdc ▸ hd

theorem Normal.mem_of_mem_rootText {c : Char} (hc : c ∈ rootText separator root t)
    (hplain : isSeparator c = false) : c ∈ t := by
  rw [rootText, List.mem_append] at hc
  rcases hc with hc | hc
  · exact List.mem_of_mem_take (Separator.mem_of_mem_unify hc hplain)
  · have hchar : c = separator.char := by
      split at hc
      · exact List.mem_singleton.mp hc
      · exact absurd hc List.not_mem_nil
    rw [hchar, isSeparator_char] at hplain
    exact absurd hplain Bool.noConfusion

/-- A normal form holds no characters but separators and those of its text. -/
theorem mem_of_mem_normalize {y : Text} (hy : normalize style separator keepEnd t = .ok (some y))
    {c : Char} (hc : c ∈ y) (hplain : isSeparator c = false) : c ∈ t := by
  obtain ⟨-, root, stack, -, hread, rfl⟩ := normalize_eq_ok_some_iff.mp hy
  rcases List.mem_append.mp hc with hc | hc
  · exact Normal.mem_of_mem_rootText hc hplain
  · -- It stands in a segment of the stack, and that is a piece of the text.
    obtain ⟨s, hs, hmem⟩ :=
      Segments.mem_of_mem_write (Segments.stays_of_mem_stack hread) hc hplain
    have hpiece : s ∈ Segments.ofText root t :=
      (Segments.mem_of_mem_resolve? hread hs).resolve_left List.not_mem_nil
    exact List.mem_of_mem_drop (Text.exists_mem_pieces_iff.mp ⟨s, hpiece, hmem⟩).1

/-! ## Fixpoints -/

theorem normalize_normalize_of_rooted {y : Text} (hrooted : Rooted style t root)
    (hy : normalize style separator keepEnd t = .ok (some y)) (hagain : Rooted style y root) :
    normalize style separator keepEnd y = .ok (some y) := by
  have hnul : '\x00' ∉ y := by
    intro hmem
    have hnul := (normalize_eq_ok_some_iff.mp hy).1
    exact hnul (mem_of_mem_normalize hy hmem (by decide))
  obtain ⟨-, root', stack, hrooted', hread, rfl⟩ := normalize_eq_ok_some_iff.mp hy
  obtain rfl : root = root' := hrooted'.unique hrooted
  -- The stack is read back, and asking twice for the end is asking once.
  rw [normalize_rootText_append_write hrooted (Segments.stays_of_mem_stack hread) hagain hnul,
    ← Bool.and_assoc, Bool.and_self]

/-- **Normal forms are fixpoints.** A normal form with a root of the same kind as the root of its
text is its own normal form, in the same separator and with the same end. -/
theorem normalize_normalize_of_kind_eq {y : Text} (hroot : Root.classify style t = some root)
    (hy : normalize style separator keepEnd t = .ok (some y))
    (hkind : (Root.classify style y).map Root.kind = some root.kind) :
    normalize style separator keepEnd y = .ok (some y) := by
  have hrooted := rooted_of_classify hroot
  obtain ⟨again, hclassify, hsameKind⟩ := Option.map_eq_some_iff.mp hkind
  have hagain := rooted_of_classify hclassify
  -- A root of the same kind that is read from the text of the root is that root.
  have hsame : again = root := by
    obtain ⟨-, root', stack, hrooted', -, rfl⟩ := normalize_eq_ok_some_iff.mp hy
    obtain rfl : root = root' := hrooted'.unique hrooted
    exact hrooted.eq_of_rootText_append hagain hsameKind
  exact normalize_normalize_of_rooted hrooted hy (hsame ▸ hagain)

/-- The home of a user that stands alone is completed, and is then read as complete. -/
theorem normalize_completed_home :
    Root.classify .unix "~me".toList = some ⟨.homeNamedUser, 4⟩ ∧
    normalize .unix .backslash true "~me".toList = .ok (some "~me\\".toList) ∧
    normalize .unix .backslash true "~me\\".toList = .ok (some "~me\\".toList) := by
  have hroot : Root.classify .unix "~me".toList = some ⟨.homeNamedUser, 4⟩ := by decide
  have hnormal : normalize .unix .backslash true "~me".toList = .ok (some "~me\\".toList) := by rfl
  exact ⟨hroot, hnormal, normalize_normalize_of_kind_eq hroot hnormal (by decide)⟩

end Pathname
