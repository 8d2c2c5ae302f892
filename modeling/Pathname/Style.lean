import Pathname.Separator
import Pathname.Unicode.Blank
import Pathname.Unicode.Lowercase

/-!
# Styles

The conventions of a platform family: which separator it writes, whether a bare `C:` is a drive,
whether file names that differ in case only are different names, and whether a file may have
alternate data streams.

## Contents

- `Style` and its four conventions.
- `StyleChoice`: a fixed style, or whichever style the system has.
- `Style.ofPlatform`, `Environment.style`: the style of a machine, from what it reports of itself.
-/

namespace Pathname

/-- The two families of path conventions. -/
inductive Style where
  /-- Slashes, no drives, case matters. -/
  | unix
  /-- Backslashes, drive letters, case does not matter. -/
  | windows
  deriving DecidableEq, Repr

namespace Style

/-- The separator that a style writes. -/
def separator : Style → Separator
  | unix => .slash
  | windows => .backslash

/-- Whether a letter and a colon alone name a drive. -/
def hasBareDrives : Style → Bool
  | unix => false
  | windows => true

/-- Whether names that differ in case only are different names. -/
def isCaseSensitive : Style → Bool
  | unix => true
  | windows => false

/-- Whether a colon in a file name opens an alternate data stream. -/
def hasStreams : Style → Bool
  | unix => false
  | windows => true

/-- The style of a platform's name: `windows` when the name, without blanks around it and in
small letters, begins with `win`. -/
def ofPlatform (name : Text) : Style :=
  if "win".toList.isPrefixOf ((Unicode.trimBlank name).flatMap Unicode.lower) then windows
  else unix

end Style

/-! ## The style of the system -/

/-- Which style is meant where a style is wanted. -/
inductive StyleChoice where
  /-- The style of the system, whatever it is when the choice is looked at. -/
  | system
  /-- The given style. -/
  | fixed (style : Style)
  deriving DecidableEq, Repr

/-- The style that is meant when the system has the given one. -/
def StyleChoice.resolve (system : Style) : StyleChoice → Style
  | .system => system
  | .fixed style => style

/-- What a machine reports of itself. -/
structure Environment where
  /-- A platform name that its user set to overrule the machine. -/
  override : Option Text := none
  /-- The family of the operating system. -/
  family : Text := "posix".toList
  /-- The name of the platform. -/
  platform : Text := "linux".toList
  deriving DecidableEq, Repr

/-- The style of a machine: a non-empty override decides, then the family `nt`, then the name of
the platform. -/
def Environment.style (environment : Environment) : Style :=
  match environment.override with
  | some (c :: name) => .ofPlatform (c :: name)
  | _ =>
    if environment.family = "nt".toList then .windows
    else .ofPlatform environment.platform

end Pathname
