import Pathname.Unicode.Printable

/-!
# Control and format characters

Characters that a reader of a text does not see: the controls, among which are the ends of lines, and
the format characters, which change how the text around them is shown.

## Contents

- `isHidden`: the property, from a table of 23 ranges.
- `isHidden_of_isPrintable`: a printable character does not have it.
-/

namespace Pathname.Unicode

/-- The control and format characters of Unicode 14.0. -/
def hidden : List CodeRange := [
  ⟨0x0, 0x1f⟩, ⟨0x7f, 0x9f⟩, ⟨0xad, 0xad⟩, ⟨0x600, 0x605⟩, ⟨0x61c, 0x61c⟩, ⟨0x6dd, 0x6dd⟩,
  ⟨0x70f, 0x70f⟩, ⟨0x890, 0x891⟩, ⟨0x8e2, 0x8e2⟩, ⟨0x180e, 0x180e⟩, ⟨0x200b, 0x200f⟩,
  ⟨0x202a, 0x202e⟩, ⟨0x2060, 0x2064⟩, ⟨0x2066, 0x206f⟩, ⟨0xfeff, 0xfeff⟩, ⟨0xfff9, 0xfffb⟩,
  ⟨0x110bd, 0x110bd⟩, ⟨0x110cd, 0x110cd⟩, ⟨0x13430, 0x13438⟩, ⟨0x1bca0, 0x1bca3⟩,
  ⟨0x1d173, 0x1d17a⟩, ⟨0xe0001, 0xe0001⟩, ⟨0xe0020, 0xe007f⟩
]

/-- The table is in order, so that looking a character up finds its range. -/
theorem ascending_hidden : CodeRange.ascendingFrom 0 hidden = true := by
  decide +kernel

/-- Whether a character is a control or a format character. -/
def isHidden (c : Char) : Bool := CodeRange.covers hidden c.toNat

/-- The ends of lines are hidden. -/
example : isHidden '\n' = true ∧ isHidden '\r' = true := by decide

/-- No range of the one table meets a range of the other. -/
theorem hidden_disjoint_printable :
    (hidden.all fun h => printable.all fun p => h.last < p.first || p.last < h.first) = true := by
  decide +kernel

theorem isHidden_of_isPrintable {c : Char} (h : isPrintable c = true) : isHidden c = false := by
  obtain ⟨shown, hshown, hfirst, hlast⟩ := (CodeRange.covers_iff ascending_printable c.toNat).mp h
  apply Bool.eq_false_iff.mpr
  intro hhidden
  obtain ⟨range, hrange, hfirst', hlast'⟩ :=
    (CodeRange.covers_iff ascending_hidden c.toNat).mp hhidden
  have hapart : range.last < shown.first ∨ shown.last < range.first := by
    simpa using List.all_eq_true.mp (List.all_eq_true.mp hidden_disjoint_printable range hrange)
      shown hshown
  omega

end Pathname.Unicode
