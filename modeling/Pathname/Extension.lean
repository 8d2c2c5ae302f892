import Pathname.Root

/-!
# Extensions

The extension of a file name is what follows its last dot. Where the style has alternate data
streams, a colon in the file name is an error; the colon of a drive is not part of the name.

## Contents

- `lastDot?`: the dot before the extension.
- `hasStreamMarker`: the colon that is an error.
- `extensionDot?`: the dot, or the error.
-/

namespace Pathname

/-- The position of the last dot of a text, if it stands after the last separator. -/
def lastDot? (t : Text) : Option Nat :=
  (Text.lastIndex? (· == '.') t).filter fun i => decide (lastSegmentStart t ≤ i)

/-- The position from which on a colon opens a stream: the beginning of the file name, or the
end of the drive, if that comes later. -/
def streamStart (t : Text) : Nat :=
  -- Only a style with drives asks for this, so the drive is read in that style.
  match Root.classify .windows t with
  | some ⟨.driveRelative, _⟩ => max (lastSegmentStart t) 2
  | some ⟨.driveAbsolute, _⟩ => max (lastSegmentStart t) 2
  | _ => lastSegmentStart t

/-- Whether the file name of a text opens a stream. -/
def hasStreamMarker (style : Style) (t : Text) : Bool :=
  style.hasStreams && (t.drop (streamStart t)).contains ':'

/-- The position of the dot before the extension of a text. -/
def extensionDot? (style : Style) (t : Text) : Except PathError (Option Nat) :=
  if hasStreamMarker style t then .error ⟨.streamMarker, t⟩ else .ok (lastDot? t)

end Pathname
