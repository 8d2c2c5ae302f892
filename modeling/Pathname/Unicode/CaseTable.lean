import Pathname.Text

/-!
# Case tables

The full case mapping of a character is one character or, for a few characters, several. A
`CaseTable` holds both kinds: runs of code points that move by one distance, and the images that
are spelled out. A character in neither is its own image. Mappings are independent of the locale
and of the neighbouring characters.

## Contents

- `CaseRun`, `CaseRun.image`: mappings to one character.
- `CaseTable`, `CaseTable.image`: the whole mapping.
-/

namespace Pathname.Unicode

/-! ## Runs of code points -/

/-- The code points `first`, `first + step`, … up to `last`, mapped in order to `target` and the
code points at the same distances from it. The points between two members have no mapping. -/
structure CaseRun where
  /-- The least code point with a mapping. -/
  first : Nat
  /-- The greatest code point with a mapping. -/
  last : Nat
  /-- The distance of two neighbouring members. -/
  step : Nat
  /-- The image of `first`. -/
  target : Nat
  deriving DecidableEq, Repr

/-- The image of a code point under runs that stand in ascending order and do not overlap; a
code point that no run maps is its own image. -/
def CaseRun.image : List CaseRun → Nat → Nat
  | [], n => n
  | run :: rest, n =>
    if n < run.first then n
    else if run.last < n then CaseRun.image rest n
    else if (n - run.first) % run.step = 0 then run.target + (n - run.first)
    else n

/-! ## Tables -/

/-- A case mapping. -/
structure CaseTable where
  /-- The mappings to one character, in ascending order. -/
  runs : List CaseRun
  /-- The mappings to several characters, in ascending order. -/
  expansions : List (Nat × List Nat)
  deriving DecidableEq, Repr

namespace CaseTable

/-- The image that ascending `expansions` spell out for a code point. -/
def expansion? : List (Nat × List Nat) → Nat → Option (List Nat)
  | [], _ => none
  | (code, target) :: rest, n =>
    if n < code then none else if n = code then some target else expansion? rest n

/-- The image of a character, which is never empty in the tables of this library. -/
def image (table : CaseTable) (c : Char) : Text :=
  match expansion? table.expansions c.toNat with
  | some target => target.map Char.ofNat
  | none => [Char.ofNat (CaseRun.image table.runs c.toNat)]

end CaseTable

end Pathname.Unicode
