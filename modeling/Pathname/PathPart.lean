import Pathname.Extension

/-!
# Parts of a path

| Part                    | Of `C:\a\b\c.txt` |
|-------------------------|-------------------|
| root                    | `C:\`             |
| full path               | `C:\a\b\`         |
| full path, end cut off  | `C:\a\b`          |
| path                    | `a\b\`            |
| path, end cut off       | `a\b`             |
| name                    | `c.txt`           |
| base name               | `c`               |
| extension               | `txt`             |
| all but the extension   | `C:\a\b\c`        |

A part with a fault is an error, and so is a malformed root, except for the last part. NUL
characters are looked for in the text that is about to be handed out; for a file name and what
is cut from it, that is the whole path.

## Contents

- `fullPath`, `directories`, `fileName`, `baseName`, `extension`, `withoutExtension`.
- `hasExtension`: whether the extension is one of a list.
- `PathPart`, `PathPart.extract`: all of them under one roof.
-/

namespace Pathname

/-! ## Directories -/

/-- The root and the directories of a path, with the separator at their end or without it. -/
def fullPath (style : Style) (withEnd : Bool) (t : Text) : Except PathError Text := do
  let root ← Root.ofText style t
  if t.length ≤ root.length then
    -- Nothing follows the root.
    if withEnd then Root.textOf style t else rejectNul t
  else
    match lastSeparator? t with
    | none => rejectNul (t.take root.length)
    -- A separator at the very beginning is never cut off.
    | some i => rejectNul (t.take (if withEnd then i + 1 else max i 1))

/-- The directories of a path, with the separator at their end or without it. -/
def directories (style : Style) (withEnd : Bool) (t : Text) : Except PathError Text := do
  let root ← Root.ofText style t
  match lastSeparator? t with
  | none => return []
  | some i =>
    let stop := if withEnd then i + 1 else i
    if t.length ≤ root.length ∨ stop ≤ root.length then return []
    else rejectNul ((t.take stop).drop root.length)

/-! ## The file name -/

/-- What follows the last separator of a path. -/
def fileName (style : Style) (t : Text) : Except PathError Text := do
  let _ ← Root.ofText style t
  let t ← rejectNul t
  return t.drop (lastSegmentStart t)

/-- A path up to the dot before its extension; the root may be malformed. -/
def withoutExtension (style : Style) (t : Text) : Except PathError Text := do
  let t ← rejectNul t
  match ← extensionDot? style t with
  | none => return t
  | some i => return t.take i

/-- The file name of a path up to the dot before its extension. Streams are looked for in the
whole path, where the colon of a drive is told from the colon of a stream. -/
def baseName (style : Style) (t : Text) : Except PathError Text := do
  let name ← fileName style t
  let _ ← extensionDot? style t
  withoutExtension style name

/-- What follows the dot before the extension of a path; empty if there is none. -/
def extension (style : Style) (t : Text) : Except PathError Text := do
  let _ ← Root.ofText style t
  let t ← rejectNul t
  match ← extensionDot? style t with
  | none => return []
  | some i => return t.drop (i + 1)

/-- Whether the extension of a path is one of those wanted. Where none are wanted, the path has
to have no extension, and its root may be malformed. -/
def hasExtension (style : Style) (wanted : List Text) (t : Text) : Except PathError Bool := do
  let t ← rejectNul t
  if wanted.isEmpty then
    return (← extensionDot? style t).isNone
  else
    return wanted.contains (← extension style t)

/-! ## All parts -/

/-- The parts of a path. -/
inductive PathPart where
  /-- The root. -/
  | root
  /-- The root and the directories. -/
  | fullPath
  /-- The root and the directories without the separator at their end. -/
  | fullPathNoEnd
  /-- The directories. -/
  | path
  /-- The directories without the separator at their end. -/
  | pathNoEnd
  /-- The file name. -/
  | name
  /-- The file name without its extension. -/
  | baseName
  /-- The extension. -/
  | extension
  /-- The path without the extension. -/
  | allButExtension
  deriving DecidableEq, Repr

/-- A part of a path. -/
def PathPart.extract (style : Style) (t : Text) : PathPart → Except PathError Text
  | root => Root.textOf style t
  | fullPath => Pathname.fullPath style true t
  | fullPathNoEnd => Pathname.fullPath style false t
  | path => directories style true t
  | pathNoEnd => directories style false t
  | name => fileName style t
  | baseName => Pathname.baseName style t
  | extension => Pathname.extension style t
  | allButExtension => withoutExtension style t

end Pathname
