import Pathname.Error
import Pathname.Host
import Pathname.Style

/-!
# Roots

The root of a path is the beginning that anchors it.

| Path                  | Root                           | Length |
|-----------------------|--------------------------------|--------|
| `a/b`                 | none, the path is relative     | 0      |
| `/a`, `\a`            | the current drive              | 1      |
| `C:a`                 | a drive, relative to its place | 2      |
| `C:\a`                | a drive                        | 3      |
| `//server/a`          | a server                       | 9      |
| `~/a`, `~`            | the home of the current user   | 2      |
| `~user/a`, `~user`    | the home of a named user       | 6      |

A root may be one longer than the path: a home marker that stands alone is complete only with a
separator after it. Slashes and backslashes count alike.

## Contents

- `RootKind`, `Root` and `Root.classify`: the grammar.
- `Root.ofText`: the root, or the error that there is none.
- `Root.lengthOf`, `Root.textOf`: the length and the text of the root.
-/

namespace Pathname

/-- What anchors a path. -/
inductive RootKind where
  /-- Nothing: the path is relative. -/
  | relative
  /-- The root directory of the current drive. -/
  | currentDrive
  /-- The current directory of a drive. -/
  | driveRelative
  /-- The root directory of a drive. -/
  | driveAbsolute
  /-- A server. -/
  | server
  /-- The home directory of the current user. -/
  | homeCurrentUser
  /-- The home directory of a named user. -/
  | homeNamedUser
  deriving DecidableEq, Repr

/-- The label under which a kind of root is shown. -/
def RootKind.label : RootKind → Text
  | relative => "none".toList
  | currentDrive => "current-drive-absolute".toList
  | driveRelative => "drive-relative".toList
  | driveAbsolute => "drive-absolute".toList
  | server => "unc".toList
  | homeCurrentUser => "home-current-user".toList
  | homeNamedUser => "home-named-user".toList

/-- The root of a path. -/
structure Root where
  /-- What anchors the path. -/
  kind : RootKind
  /-- How many characters of the path belong to the root. -/
  length : Nat
  deriving DecidableEq, Repr

namespace Root

/-! ## The grammar -/

/-- The root of a relative path. -/
def relative : Root := ⟨.relative, 0⟩

/-- The root that is a single separator. -/
def currentDrive : Root := ⟨.currentDrive, 1⟩

/-- The root that begins with a home marker, from what follows the marker: everything up to the
first separator is the name of a user. -/
def home (rest : Text) : Root :=
  match rest.findIdx? isSeparator with
  | some 0 => ⟨.homeCurrentUser, 2⟩
  | some (i + 1) => ⟨.homeNamedUser, i + 3⟩
  | none => if rest.isEmpty then ⟨.homeCurrentUser, 2⟩ else ⟨.homeNamedUser, rest.length + 2⟩

/-- The root of a path with a colon in second place, from its first character and what follows
the colon. A letter names a drive, except where the style knows no bare drives and nothing
follows; before a colon a slash is still the root of the current drive. -/
def drive (style : Style) (letter : Char) (rest : Text) : Option Root :=
  if letter.isAlpha then
    match rest with
    | [] => some (if style.hasBareDrives then ⟨.driveRelative, 2⟩ else relative)
    | c :: _ => some (if isSeparator c then ⟨.driveAbsolute, 3⟩ else ⟨.driveRelative, 2⟩)
  else if letter = '/' then some currentDrive
  else none

/-- The root that begins with two separators, from what follows them: a host that is neither
empty nor malformed, and a separator. -/
def server (rest : Text) : Option Root :=
  match rest.findIdx? isSeparator with
  | some (i + 1) => if Host.isValid (rest.take (i + 1)) then some ⟨.server, i + 4⟩ else none
  | _ => none

/-- The root of a path, or nothing if its beginning is malformed. -/
def classify (style : Style) : Text → Option Root
  | [] => some relative
  | c :: rest =>
    if c = ':' then none
    else if c = '~' then some (home rest)
    else if rest.head? = some ':' then drive style c rest.tail
    else if !isSeparator c then some relative
    else
      -- One separator is the current drive, two begin a server.
      match rest with
      | [] => some currentDrive
      | d :: more => if isSeparator d then server more else some currentDrive

/-! ## What a root says of its path -/

/-- Whether a root anchors its path. -/
def isAbsolute (root : Root) : Bool := root.kind != .relative

/-- Whether a root is longer than a text. -/
def exceeds (root : Root) (t : Text) : Bool := decide (t.length < root.length)

/-- The root of a text; a malformed beginning is an error. -/
def ofText (style : Style) (t : Text) : Except PathError Root :=
  match classify style t with
  | some root => .ok root
  | none => .error ⟨.unparseableRoot, t⟩

/-- The length of the root of a text. -/
def lengthOf (style : Style) (t : Text) : Except PathError Nat :=
  (ofText style t).map length

/-- The text of the root, with a slash at its end if the root is longer than the path. -/
def textOf (style : Style) (t : Text) : Except PathError Text := do
  let root ← ofText style t
  let t ← rejectNul t
  return if root.exceeds t then t ++ [Separator.slash.char] else t.take root.length

/-- A text has a root exactly when its beginning is not malformed. -/
theorem ofText_eq_ok_iff {style : Style} {t : Text} {root : Root} :
    ofText style t = .ok root ↔ classify style t = some root := by
  unfold ofText
  split <;> simp_all

end Root

end Pathname
