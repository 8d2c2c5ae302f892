import Pathname.Normal

/-!
# Joining paths

An addition is taken from where a base path leads. An addition with a root of its own leads away
from the base, and a relative addition to nothing leads nowhere.

| Base      | Addition    | Join       |
|-----------|-------------|------------|
| `/foo/`   | `bar`       | `/foo/bar` |
| `/foo`    | `bar`       | `/foo/bar` |
| `/foo`    | `/bar`      | `/bar`     |
| `/foo/a/` | `../bar`    | `/foo/bar` |
| `/foo/`   | `../../bar` | none       |

## Contents

- `glue`: the joined text before it is brought to normal form.
- `join`: the join itself.
-/

namespace Pathname

/-- A base and an addition with a separator between them; an empty base needs none. -/
def glue (base addition : Text) : Text :=
  match base.getLast? with
  | none => addition
  | some c => if isSeparator c then base ++ addition else base ++ Separator.slash.char :: addition

/-- The normal form of an addition, taken from a base, in the separator of the style. -/
def join (style : Style) (base : Option Text) (addition : Text) :
    Except PathError (Option Text) := do
  let root ← Root.ofText style addition
  if 0 < root.length then normalize style style.separator true addition
  else
    match base with
    | none => return none
    | some base => normalize style style.separator true (glue base addition)

end Pathname
