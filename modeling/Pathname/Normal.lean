import Pathname.Root

/-!
# Normal forms

The normal form of a path has its root, one separator throughout, and no segment that is empty,
`.` or `..`: the first two are dropped, and the third takes the segment before it along. A path
in which some `..` has no segment before it climbs over its root, and has no normal form.

| Path                  | Normal form   |
|-----------------------|---------------|
| `/foo//`              | `/foo/`       |
| `/foo/./`             | `/foo/`       |
| `/foo/../bar/../baz`  | `/baz`        |
| `//server/foo/../bar` | `//server/bar`|
| `~/../bar`            | none          |

## Architecture

One pass over the characters after the root. What is kept stands in reverse, each segment with a
separator after it, so that a segment is dropped from the front; the segment that is being read
stands in reverse beside it.

## Contents

- `Normal.close`, `Normal.scan`: the pass.
- `normalize`: the whole text.
-/

namespace Pathname

namespace Normal

/-! ## Segments, in reverse -/

/-- Whether a segment only repeats or moves the place where it stands, as the empty segment, `.`
and `..` do. Each of them is its own reverse. -/
def isStep (segment : Text) : Bool :=
  segment == [] || segment == ['.'] || segment == ['.', '.']

/-- What is kept after the last kept segment is dropped; nothing if there is none. -/
def drop? (separator : Char) : Text → Option Text
  | [] => none
  | _ :: kept => some (kept.dropWhile (· != separator))

/-- What is kept after a segment has been read to its end. -/
def close (separator : Char) (segment kept : Text) : Option Text :=
  if segment = [] ∨ segment = ['.'] then some kept
  else if segment = ['.', '.'] then drop? separator kept
  else some (separator :: (segment ++ kept))

/-! ## The pass -/

/-- Reads a text to its end. The answer is what is kept, and whether the last segment was a mere
step, so that the text ends in a directory. -/
def scan (separator : Char) : (rest segment kept : Text) → Option (Text × Bool)
  | [], segment, kept =>
    (close separator segment kept).map fun kept => (kept, isStep segment)
  | c :: rest, segment, kept =>
    if isSeparator c then
      match close separator segment kept with
      | some kept => scan separator rest [] kept
      | none => none
    else scan separator rest (c :: segment) kept

/-- The text of a root as it stands in a normal form. -/
def rootText (separator : Separator) (root : Root) (t : Text) : Text :=
  separator.unify (t.take root.length) ++ if root.exceeds t then [separator.char] else []

/-- The normal form of a text with the given root. -/
def ofRoot (separator : Separator) (keepEnd : Bool) (root : Root) (t : Text) : Option Text :=
  (scan separator.char (t.drop root.length) [] []).map fun (kept, endsInStep) =>
    rootText separator root t ++
      (if keepEnd && endsInStep then kept else kept.tail).reverse

end Normal

/-- The normal form of a text, written with the given separator, or nothing if the text climbs
over its root. A separator at the end is kept, if at all, only where the text ends in a
directory. -/
def normalize (style : Style) (separator : Separator) (keepEnd : Bool) (t : Text) :
    Except PathError (Option Text) := do
  let t ← rejectNul t
  let root ← Root.ofText style t
  return Normal.ofRoot separator keepEnd root t

end Pathname
