import Pathname.CasePolicy
import Pathname.Normal

/-!
# Comparing paths

Equality of paths, as they stand or in normal form, and containment of one path in another.
Containment reads both paths as they stand; it is meant for paths in normal form.

## Contents

- `comparable`: the normal form as a side of a comparison.
- `pathsEqual`: equality.
- `contains`: containment.
-/

namespace Pathname

/-- The normal form of a path that is to be compared. A path with a malformed root has none. -/
def comparable (style : Style) (t : Text) : Except PathError (Option Text) :=
  match normalize style style.separator true t with
  | .error ⟨.unparseableRoot, _⟩ => .ok none
  | answer => answer

/-- Whether two paths are equal: two absent paths are, an absent and a present path are not.
With `inNormalForm` the normal forms are compared, and a path without one equals nothing; the
second path is then looked at only if the first one has a normal form. -/
def pathsEqual (style : Style) (inNormalForm : Bool) (policy : CasePolicy) :
    Option Text → Option Text → Except PathError Bool
  | none, none => .ok true
  | some a, some b =>
    if inNormalForm then do
      match ← comparable style a with
      | none => return false
      | some a =>
        match ← comparable style b with
        | none => return false
        | some b => return (policy.rule style).equals a b
    else .ok ((policy.rule style).equals a b)
  | _, _ => .ok false

/-- The beginning of everything inside a directory: the directory with a separator at its end,
which is a slash exactly if the directory begins with one. -/
def inside (directory : Text) : Text :=
  let separator := if directory.head? = some '/' then Separator.slash else .backslash
  if directory.getLast? = some separator.char then directory else directory ++ [separator.char]

/-- Whether a path lies in a directory. Absent and empty paths lie nowhere and hold nothing, and
no directory lies in itself. -/
def contains (rule : CaseRule) : Option Text → Option Text → Bool
  | some (p :: parent), some (c :: child) =>
    !rule.equals (p :: parent) (c :: child) && rule.beginsWith (c :: child) (inside (p :: parent))
  | _, _ => false

end Pathname
