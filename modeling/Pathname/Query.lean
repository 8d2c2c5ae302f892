import Pathname.NameFilter
import Pathname.Transform

/-!
# Queries

Everything that can be asked about paths in a style, as data. A `Query` has an answer in each style,
which sees nothing of the system. It is answered under a choice of style, and then the system may be
asked for the style that it has.

## Contents

- `RootReport`, `PartsReport`, `CaseChecks`: answers that consist of several facts.
- `WantedExtensions`: the ways to say which extensions are wanted.
- `Query`, `Reply`, `Query.answer`: the reply in a style.
- `Query.answerUnder`: the reply with a choice of style.
-/

namespace Pathname

/-! ## Reports -/

/-- What is known of the root of a text. -/
structure RootReport where
  /-- The root, unless the beginning of the text is malformed. -/
  root : Option Root
  /-- Whether the root is longer than the text that was asked about. -/
  exceeds : Bool
  deriving DecidableEq, Repr

/-- The report on the root of a text; whether the root is too long may be asked of another
text. -/
def RootReport.ofRoot (root : Option Root) (t : Text) (probe : Option Text) : RootReport where
  root := root
  exceeds := (root.map fun root => root.exceeds (probe.getD t)).getD false

/-- A kind of root is shown as its label, and a malformed beginning as `invalid`. -/
def RootReport.label (report : RootReport) : Text :=
  match report.root with
  | some root => root.kind.label
  | none => "invalid".toList

/-- Whether there is a root, and it anchors the path. -/
def RootReport.isAbsolute (report : RootReport) : Bool :=
  (report.root.map Root.isAbsolute).getD false

/-- Whether two texts are equal, and whether the first begins and ends with the second. -/
structure CaseChecks where
  /-- The texts are equal. -/
  equals : Bool
  /-- The first text begins with the second. -/
  beginsWith : Bool
  /-- The first text ends with the second. -/
  endsWith : Bool
  deriving DecidableEq, Repr

/-- The extensions that are wanted. -/
inductive WantedExtensions where
  /-- No extension at all. -/
  | absent
  /-- One extension; the empty text stands for none. -/
  | single (extension : Text)
  /-- Any extension of a list. -/
  | list (extensions : List Text)
  deriving DecidableEq, Repr

/-- The list of the extensions that are wanted. -/
def WantedExtensions.toList : WantedExtensions → List Text
  | absent => []
  | single [] => []
  | single extension => [extension]
  | list extensions => extensions

/-- All parts and positions of a path at once. -/
structure PartsReport where
  /-- The parts. -/
  parts : List (PathPart × Except PathError (Option Text))
  /-- The position of the last separator. -/
  lastSeparator : Option Nat
  /-- The position of the dot before the extension. -/
  extensionDot : Except PathError (Option Nat)
  /-- The length of the root; it takes a path to have one. -/
  rootLength : Option (Except PathError Nat)

/-- The parts that a path is reported in. -/
def PathPart.all : List PathPart :=
  [.root, .fullPath, .fullPathNoEnd, .path, .pathNoEnd, .name, .baseName, .extension,
    .allButExtension]

/-- The position of the dot before the extension of a path, if there is a path. -/
def pathExtensionDot? (style : Style) : Option Text → Except PathError (Option Nat)
  | none => .ok none
  | some t => extensionDot? style t

/-- The same position, when the system has the given style. -/
def pathExtensionDotUnder? (system : Style) (choice : StyleChoice) :
    Option Text → Except PathError (Option Nat)
  | none => .ok none
  | some t => Ambient.extensionDot? system choice t

/-- The report on the parts of a path in a style. -/
def PartsReport.ofPath (style : Style) (path : Option Text) : PartsReport where
  parts := PathPart.all.map fun part => (part, (Transform.part part).apply style path)
  lastSeparator := path.bind lastSeparator?
  extensionDot := pathExtensionDot? style path
  rootLength := path.map (Root.lengthOf style)

/-- The report on the parts of a path, when the system has the given style. -/
def PartsReport.ofPathUnder (system : Style) (choice : StyleChoice) (path : Option Text) :
    PartsReport where
  parts := PathPart.all.map fun part => (part, (Transform.part part).applyUnder system choice path)
  lastSeparator := path.bind lastSeparator?
  extensionDot := pathExtensionDotUnder? system choice path
  rootLength := path.map (Ambient.rootLength system choice)

/-! ## Queries and replies -/

/-- A question about paths in a style. -/
inductive Query where
  /-- What does an operation make of a path? -/
  | transform (operation : Transform) (path : Option Text)
  /-- What is the root of a text, and is it longer than the probe? -/
  | root (t : Text) (probe : Option Text)
  /-- How long is the root of a text? -/
  | rootLength (t : Text)
  /-- Where is the dot before the extension? -/
  | extensionDot (path : Option Text)
  /-- Is the extension one of those wanted? -/
  | hasExtension (path : Option Text) (wanted : WantedExtensions)
  /-- What are all the parts of a path? -/
  | parts (path : Option Text)
  /-- Are two paths equal? Without a policy, case matters. -/
  | equal (inNormalForm : Bool) (policy : Option CasePolicy) (a b : Option Text)
  /-- Are two paths equal, case mattering as it does in the style? -/
  | equalOnSystem (a b : Option Text)
  /-- Are the normal forms of two paths equal? -/
  | equalNormalized (a b : Option Text)
  /-- Are the normal forms of two paths equal, case mattering as it does in the style? -/
  | equalNormalizedOnSystem (a b : Option Text)
  /-- Does a directory contain a path? Without a policy, case matters as it does in the style. -/
  | contains (policy : Option CasePolicy) (parent child : Option Text)
  /-- Does a name match a pattern? Without a policy, case matters. -/
  | wildcard (policy : Option CasePolicy) (name pattern : Option Text)
  /-- Does a name match a pattern, case mattering as it does in the style? -/
  | wildcardOnSystem (name pattern : Option Text)
  /-- What does a policy come down to? -/
  | policy (policy : CasePolicy)
  /-- Do two texts agree, from the beginning and at the end? -/
  | caseChecks (policy : CasePolicy) (a b : Text)
  /-- Does a token occur in a text at a position? -/
  | occursAt (policy : CasePolicy) (t : Text) (start : Int) (token : Text)
  /-- Where does a token first occur in a text from a position on? -/
  | indexOf (policy : CasePolicy) (t : Text) (start : Int) (token : Text)
  deriving DecidableEq, Repr

/-- The reply to a query. -/
inductive Reply where
  /-- A text, or none. -/
  | text (value : Option Text)
  /-- Yes or no. -/
  | flag (value : Bool)
  /-- A position, or none. -/
  | position (value : Option Nat)
  /-- A length. -/
  | length (value : Nat)
  /-- The root of a text. -/
  | root (report : RootReport)
  /-- The parts of a path. -/
  | parts (report : PartsReport)
  /-- A policy, and the one that it comes down to. -/
  | policy (given resolved : CasePolicy)
  /-- How two texts agree. -/
  | caseChecks (checks : CaseChecks)

namespace Query

/-- The reply to a query in a style. -/
def answer (style : Style) : Query → Except PathError Reply
  | transform operation path => (operation.apply style path).map .text
  | root t probe => .ok (.root (RootReport.ofRoot (Root.classify style t) t probe))
  | rootLength t => (Root.lengthOf style t).map .length
  | extensionDot path => (pathExtensionDot? style path).map .position
  | hasExtension none _ => .ok (.flag false)
  | hasExtension (some t) wanted => (Pathname.hasExtension style wanted.toList t).map .flag
  | parts path => .ok (.parts (PartsReport.ofPath style path))
  | equal inNormalForm given a b =>
    (pathsEqual style inNormalForm (given.getD .sensitive) a b).map .flag
  | equalOnSystem a b => (pathsEqual style false .system a b).map .flag
  | equalNormalized a b => (pathsEqual style true .sensitive a b).map .flag
  | equalNormalizedOnSystem a b => (pathsEqual style true .system a b).map .flag
  | contains given parent child =>
    .ok (.flag (Pathname.contains ((given.getD .system).rule style) parent child))
  | wildcard given name pattern =>
    .ok (.flag (Glob.wildcardMatch ((given.getD .sensitive).rule style) name pattern))
  | wildcardOnSystem name pattern =>
    .ok (.flag (Glob.wildcardMatch (CasePolicy.system.rule style) name pattern))
  | policy given => .ok (.policy given (given.resolve style))
  | caseChecks given a b =>
    let rule := given.rule style
    .ok (.caseChecks ⟨rule.equals a b, rule.beginsWith a b, rule.endsWith a b⟩)
  | occursAt given t start token => .ok (.flag ((given.rule style).occursAt t start token))
  | indexOf given t start token => .ok (.position ((given.rule style).indexOf? t start token))

/-- The reply to a query with a choice of style, when the system has the given one. -/
def answerUnder (system : Style) (choice : StyleChoice) : Query → Except PathError Reply
  | transform operation path => (operation.applyUnder system choice path).map .text
  | root t probe => .ok (.root (RootReport.ofRoot (Ambient.classify system choice t) t probe))
  | rootLength t => (Ambient.rootLength system choice t).map .length
  | extensionDot path => (pathExtensionDotUnder? system choice path).map .position
  | hasExtension none _ => .ok (.flag false)
  | hasExtension (some t) wanted =>
    (Ambient.hasExtension system choice wanted.toList t).map .flag
  | parts path => .ok (.parts (PartsReport.ofPathUnder system choice path))
  | equal inNormalForm given a b =>
    (Ambient.pathsEqual system choice inNormalForm given a b).map .flag
  | equalOnSystem a b => (Ambient.equalOnSystem system choice a b).map .flag
  | equalNormalized a b => (Ambient.equalNormalized system choice a b).map .flag
  | equalNormalizedOnSystem a b => (Ambient.equalNormalizedOnSystem system choice a b).map .flag
  | contains given parent child => .ok (.flag (Ambient.contains system choice given parent child))
  | wildcard given name pattern =>
    .ok (.flag (Ambient.wildcardMatch system choice given name pattern))
  | wildcardOnSystem name pattern =>
    .ok (.flag (Ambient.wildcardOnSystem system choice name pattern))
  | policy given => .ok (.policy given (Ambient.resolvePolicy system choice given))
  | caseChecks given a b =>
    .ok (.caseChecks ⟨Ambient.equals system choice given a b,
      Ambient.beginsWith system choice given a b, Ambient.endsWith system choice given a b⟩)
  | occursAt given t start token =>
    .ok (.flag (Ambient.occursAt system choice given t start token))
  | indexOf given t start token =>
    .ok (.position (Ambient.indexOf? system choice given t start token))

end Query

end Pathname
