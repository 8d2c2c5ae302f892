import Pathname.Text
import Pathname.Unicode.CodeRange

/-!
# Blank characters

The characters that separate words: those with the white-space property in Unicode 14.0, and the
four information separators U+001C to U+001F.

## Contents

- `isBlank`: the property, from a table of 10 ranges.
- `trimBlank`: a text without the blank characters at its ends.
-/

namespace Pathname.Unicode

/-- The blank code points of Unicode 14.0. -/
def blank : List CodeRange := [
  ⟨0x9, 0xd⟩, ⟨0x1c, 0x20⟩, ⟨0x85, 0x85⟩, ⟨0xa0, 0xa0⟩, ⟨0x1680, 0x1680⟩, ⟨0x2000, 0x200a⟩,
  ⟨0x2028, 0x2029⟩, ⟨0x202f, 0x202f⟩, ⟨0x205f, 0x205f⟩, ⟨0x3000, 0x3000⟩
]

/-- Whether a character is blank. -/
def isBlank (c : Char) : Bool := CodeRange.covers blank c.toNat

/-- A text without the blank characters at its two ends. -/
def trimBlank (t : Text) : Text :=
  ((t.dropWhile isBlank).reverse.dropWhile isBlank).reverse

end Pathname.Unicode
