import Pathname.Collapse
import Pathname.Compare
import Pathname.Glob.Matcher
import Pathname.Join
import Pathname.PathPart

/-!
# Operations without a style of their own

Where an operation takes a style, the style may be left out, and then it is that of the system. Here
are the operations as they are called: each is given a choice, which may be to leave the style out, and
hands this choice on to the operations that it makes use of. The choice is looked up only where
something depends on it:

| What depends on it                 | Where it is looked up |
|------------------------------------|-----------------------|
| a letter and a colon at the front  | `classify`            |
| the separator that is written      | `unify`, `normalize`  |
| a colon in a file name             | `extensionDot?`       |
| the case policy of the system      | `resolvePolicy`       |

An operation that did not hand its choice on would read a path in the style of the system, whatever
style it was given. The system is within reach of all of them, so nothing in their types rules this
out: each is shown to be the operation of the same name in the style that the choice comes to.

## Contents

- `classify`, `rootLength`, `rootText`: roots.
- `unify`, `normalize`, `normalizeNoEnd`, `join`: texts that are written.
- `extensionDot?`, `fullPath` to `hasExtension`, `extract`: parts.
- `resolvePolicy` to `indexOf?`: case policies and their checks.
- `pathsEqual` and its variants, `contains`, `wildcardMatch`: comparisons.
-/

namespace Pathname.Ambient

variable (system : Style) (choice : StyleChoice)

/-! ## Roots -/

/-- The root of a text, or nothing if its beginning is malformed. -/
def classify (t : Text) : Option Root := Root.classify (choice.resolve system) t

/-- The length of the root of a text; a malformed beginning is an error. -/
def rootLength (t : Text) : Except PathError Nat :=
  match classify system choice t with
  | some root => .ok root.length
  | none => .error ⟨.unparseableRoot, t⟩

/-- The text of the root, with a slash at its end if the root is longer than the path. -/
def rootText (t : Text) : Except PathError Text := do
  let length ← rootLength system choice t
  let t ← rejectNul t
  return if t.length < length then t ++ [Separator.slash.char] else t.take length

/-! ## Normal forms and joins -/

/-- A text with the separator of the style in place of both. -/
def unify (t : Text) : Text := (choice.resolve system).separator.unify t

/-- The normal form in a style that has been looked up. -/
def normalizeIn (style : Style) (separator : Separator) (keepEnd : Bool) (t : Text) :
    Except PathError (Option Text) := do
  let t ← rejectNul t
  if t.isEmpty then return some t
  let start ← rootLength system (.fixed style) t
  return Collapse.run separator keepEnd start t

/-- The normal form; without a separator, in that of the style. -/
def normalize (separator : Option Separator) (keepEnd : Bool) (t : Text) :
    Except PathError (Option Text) :=
  let style := choice.resolve system
  normalizeIn system style (separator.getD style.separator) keepEnd t

/-- The normal form without a separator at its end. -/
def normalizeNoEnd (separator : Option Separator) (t : Text) : Except PathError (Option Text) :=
  normalize system choice separator false t

/-- The normal form of an addition, taken from a base. -/
def join (base : Option Text) (addition : Text) : Except PathError (Option Text) := do
  let length ← rootLength system choice addition
  if 0 < length then normalize system choice none true addition
  else
    match base with
    | none => return none
    | some base => normalize system choice none true (glue base addition)

/-! ## Parts of a path -/

/-- The position from which on a colon opens a stream; the drive is read in the style with drives. -/
def streamStart (t : Text) : Nat :=
  match classify system (.fixed .windows) t with
  | some ⟨.driveRelative, _⟩ => max (lastSegmentStart t) 2
  | some ⟨.driveAbsolute, _⟩ => max (lastSegmentStart t) 2
  | _ => lastSegmentStart t

/-- The position of the dot before the extension of a text. -/
def extensionDot? (t : Text) : Except PathError (Option Nat) :=
  if (choice.resolve system).hasStreams && (t.drop (streamStart system t)).contains ':' then
    .error ⟨.streamMarker, t⟩
  else .ok (lastDot? t)

/-- The root and the directories of a path, with the separator at their end or without it. -/
def fullPath (withEnd : Bool) (t : Text) : Except PathError Text := do
  let length ← rootLength system choice t
  if t.length ≤ length then
    if withEnd then rootText system choice t else rejectNul t
  else
    match lastSeparator? t with
    | none => rejectNul (t.take length)
    | some i => rejectNul (t.take (if withEnd then i + 1 else max i 1))

/-- The directories of a path, with the separator at their end or without it. -/
def directories (withEnd : Bool) (t : Text) : Except PathError Text := do
  let length ← rootLength system choice t
  match lastSeparator? t with
  | none => return []
  | some i =>
    let stop := if withEnd then i + 1 else i
    if t.length ≤ length ∨ stop ≤ length then return []
    else rejectNul ((t.take stop).drop length)

/-- What follows the last separator of a path. -/
def fileName (t : Text) : Except PathError Text := do
  let _ ← rootLength system choice t
  let t ← rejectNul t
  return t.drop (lastSegmentStart t)

/-- A path up to the dot before its extension; the root may be malformed. -/
def withoutExtension (t : Text) : Except PathError Text := do
  let t ← rejectNul t
  match ← extensionDot? system choice t with
  | none => return t
  | some i => return t.take i

/-- The file name of a path up to the dot before its extension. -/
def baseName (t : Text) : Except PathError Text := do
  let name ← fileName system choice t
  let _ ← extensionDot? system choice t
  withoutExtension system choice name

/-- What follows the dot before the extension of a path; empty if there is none. -/
def extension (t : Text) : Except PathError Text := do
  let _ ← rootLength system choice t
  let t ← rejectNul t
  match ← extensionDot? system choice t with
  | none => return []
  | some i => return t.drop (i + 1)

/-- Whether the extension of a path is one of those wanted. -/
def hasExtension (wanted : List Text) (t : Text) : Except PathError Bool := do
  let t ← rejectNul t
  if wanted.isEmpty then
    return (← extensionDot? system choice t).isNone
  else
    return wanted.contains (← extension system choice t)

/-- A part of a path. -/
def extract (t : Text) : PathPart → Except PathError Text
  | .root => rootText system choice t
  | .fullPath => fullPath system choice true t
  | .fullPathNoEnd => fullPath system choice false t
  | .path => directories system choice true t
  | .pathNoEnd => directories system choice false t
  | .name => fileName system choice t
  | .baseName => baseName system choice t
  | .extension => extension system choice t
  | .allButExtension => withoutExtension system choice t

/-! ## Case policies -/

/-- A policy without reference to a style. -/
def resolvePolicy : CasePolicy → CasePolicy
  | .system => if (choice.resolve system).isCaseSensitive then .sensitive else .insensitive
  | policy => policy

/-- Whether case matters under a policy. -/
def isCaseSensitive (policy : CasePolicy) : Bool :=
  resolvePolicy system choice policy == .sensitive

/-- Whether a token occurs in a text at a position, which may lie outside the text. -/
def occursAt (policy : CasePolicy) (text : Text) (start : Int) (token : Text) : Bool :=
  decide (0 ≤ start) && decide (start + token.length ≤ text.length) &&
    if isCaseSensitive system choice policy then token.isPrefixOf (text.drop start.toNat)
    else CaseRule.ignoring.beginsWith (text.drop start.toNat) token

/-- Whether two texts have the same length and agree at every position. -/
def equals (policy : CasePolicy) (a b : Text) : Bool :=
  a.length == b.length && occursAt system choice policy a 0 b

/-- Whether a text begins with a token. -/
def beginsWith (policy : CasePolicy) (text token : Text) : Bool :=
  occursAt system choice policy text 0 token

/-- Whether a text ends with a token. -/
def endsWith (policy : CasePolicy) (text token : Text) : Bool :=
  occursAt system choice policy text (text.length - token.length) token

/-- The least position from `start` on at which a token occurs. Where case does not matter, the
positions at which the text has room for the token are tried one by one. -/
def indexOf? (policy : CasePolicy) (text : Text) (start : Int) (token : Text) : Option Nat :=
  if isCaseSensitive system choice policy then CaseRule.exact.indexOf? text start token
  else
    (List.range' start.toNat (text.length + 1 - token.length - start.toNat)).find? fun i =>
      occursAt system choice policy text i token

/-! ## Comparisons -/

/-- The normal form of a path that is to be compared. A path with a malformed root has none. -/
def comparable (t : Text) : Except PathError (Option Text) :=
  match normalize system choice none true t with
  | .error ⟨.unparseableRoot, _⟩ => .ok none
  | answer => answer

/-- Whether two paths are equal, as they stand or in normal form. Without a policy, case matters. -/
def pathsEqual (inNormalForm : Bool) (policy : Option CasePolicy) :
    Option Text → Option Text → Except PathError Bool
  | none, none => .ok true
  | some a, some b =>
    if inNormalForm then do
      match ← comparable system choice a with
      | none => return false
      | some a =>
        match ← comparable system choice b with
        | none => return false
        | some b => return equals system choice (policy.getD .sensitive) a b
    else .ok (equals system choice (policy.getD .sensitive) a b)
  | _, _ => .ok false

/-- Whether two paths are equal, case mattering as it does in the style. -/
def equalOnSystem (a b : Option Text) : Except PathError Bool :=
  pathsEqual system choice false (some .system) a b

/-- Whether the normal forms of two paths are equal. -/
def equalNormalized (a b : Option Text) : Except PathError Bool :=
  pathsEqual system choice true none a b

/-- Whether the normal forms of two paths are equal, case mattering as it does in the style. -/
def equalNormalizedOnSystem (a b : Option Text) : Except PathError Bool :=
  pathsEqual system choice true (some .system) a b

/-- Whether a path lies in a directory. Without a policy, case matters as it does in the style. -/
def contains (policy : Option CasePolicy) : Option Text → Option Text → Bool
  | some (p :: parent), some (c :: child) =>
    !equals system choice (policy.getD .system) (p :: parent) (c :: child) &&
      beginsWith system choice (policy.getD .system) (c :: child) (inside (p :: parent))
  | _, _ => false

/-- The rule of a policy. -/
def rule (policy : CasePolicy) : CaseRule :=
  if isCaseSensitive system choice policy then .exact else .ignoring

/-- Whether a name matches a pattern. Without a policy, case matters. -/
def wildcardMatch (policy : Option CasePolicy) (name pattern : Option Text) : Bool :=
  let resolved := resolvePolicy system choice (policy.getD .sensitive)
  -- The search leaves the style out: the policy that it is given does not refer to one any more.
  Glob.wildcardMatch (rule system .system resolved) name pattern

/-- Whether a name matches a pattern, case mattering as it does in the style. -/
def wildcardOnSystem (name pattern : Option Text) : Bool :=
  wildcardMatch system choice (some .system) name pattern

end Pathname.Ambient
