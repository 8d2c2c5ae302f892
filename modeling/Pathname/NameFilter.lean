import Pathname.Ambient

/-!
# Filters

A test for paths that is made once and applied to many of them. A filter whose style is that of
the system looks the style up each time it is applied, and not when it is made.

## Contents

- `Criterion`, `Criterion.accepts`: what is tested in a style.
- `Criterion.acceptsUnder`: the same test with a choice of style, as it is called.
- `NameFilter`: a criterion and the style in which it reads paths.
- `acceptedByAll`, `select`: several filters, several paths.
- `Criterion.describe`: the text under which a filter is shown.
-/

namespace Pathname

/-! ## Criteria -/

/-- What a filter tests. -/
inductive Criterion where
  /-- The path matches a pattern. -/
  | glob (pattern : Text) (policy : CasePolicy)
  /-- The extension is one of a list; for the empty list, there is no extension. -/
  | extensions (wanted : List Text)
  /-- The path equals another one, as it stands or in normal form. -/
  | samePath (path : Text) (inNormalForm : Bool) (policy : CasePolicy)
  /-- The path lies in a directory. -/
  | insideDirectory (directory : Text) (policy : CasePolicy)
  deriving DecidableEq, Repr

namespace Criterion

/-- A pattern; case matters unless a policy says otherwise. -/
def ofPattern (pattern : Text) (policy : Option CasePolicy) : Criterion :=
  glob pattern (policy.getD .sensitive)

/-- An equal path; case matters as it does in the system unless a policy says otherwise. -/
def ofPath (path : Text) (inNormalForm : Bool) (policy : Option CasePolicy) : Criterion :=
  samePath path inNormalForm (policy.getD .system)

/-- A directory; case matters as it does in the system unless a policy says otherwise. -/
def ofDirectory (directory : Text) (policy : Option CasePolicy) : Criterion :=
  insideDirectory directory (policy.getD .system)

/-- Whether the extension of a path is wanted. A path whose root is malformed, or whose name
opens a stream, has no extension that could be wanted; a NUL character is an error. -/
def acceptsExtension (style : Style) (wanted : List Text) (t : Text) : Except PathError Bool :=
  match extension style t with
  | .ok found => .ok (if wanted.isEmpty then found.isEmpty else wanted.contains found)
  | .error ⟨.unparseableRoot, _⟩ => .ok false
  | .error ⟨.streamMarker, _⟩ => .ok false
  | .error e => .error e

/-- Whether a path meets a criterion. -/
def accepts (style : Style) (criterion : Criterion) (t : Text) : Except PathError Bool :=
  match criterion with
  | glob pattern policy => .ok (Glob.isMatch (policy.rule style) t pattern)
  | extensions wanted => acceptsExtension style wanted t
  | samePath path inNormalForm policy => pathsEqual style inNormalForm policy (some t) (some path)
  | insideDirectory directory policy =>
    .ok (contains (policy.rule style) (some directory) (some t))

/-- Whether the extension of a path is wanted, when the system has the given style. -/
def acceptsExtensionUnder (system : Style) (choice : StyleChoice) (wanted : List Text) (t : Text) :
    Except PathError Bool :=
  match Ambient.extension system choice t with
  | .ok found => .ok (if wanted.isEmpty then found.isEmpty else wanted.contains found)
  | .error ⟨.unparseableRoot, _⟩ => .ok false
  | .error ⟨.streamMarker, _⟩ => .ok false
  | .error e => .error e

/-- Whether a path meets a criterion, when the system has the given style. -/
def acceptsUnder (system : Style) (choice : StyleChoice) (criterion : Criterion) (t : Text) :
    Except PathError Bool :=
  match criterion with
  | glob pattern policy =>
    .ok (Ambient.wildcardMatch system choice (some policy) (some t) (some pattern))
  | extensions wanted => acceptsExtensionUnder system choice wanted t
  | samePath path inNormalForm policy =>
    Ambient.pathsEqual system choice inNormalForm (some policy) (some t) (some path)
  | insideDirectory directory policy =>
    .ok (Ambient.contains system choice (some policy) (some directory) (some t))

/-! ## Descriptions -/

/-- A text in its place among ascending texts, unless it is there already. -/
def insertAscending (t : Text) : List Text → List Text
  | [] => [t]
  | u :: rest =>
    if t = u then u :: rest
    else if t < u then t :: u :: rest
    else u :: insertAscending t rest

/-- The texts of a list in ascending order, each of them once. -/
def ascending (ts : List Text) : List Text := ts.foldr insertAscending []

/-- The text under which a criterion is shown. -/
def describe : Criterion → Text
  | glob pattern policy =>
    "WildcardName(pattern=".toList ++ quote pattern ++ ", case=".toList ++ policy.displayName ++
      ")".toList
  | extensions wanted => "HasExtension(extensions=".toList ++ quoteList (ascending wanted) ++
      ")".toList
  | samePath path inNormalForm policy =>
    "SamePath(path=".toList ++ quote path ++ ", normalize=".toList ++
      (if inNormalForm then "True".toList else "False".toList) ++ ", case=".toList ++
      policy.displayName ++ ")".toList
  | insideDirectory directory policy =>
    "InsideDirectory(parent=".toList ++ quote directory ++ ", case=".toList ++
      policy.displayName ++ ")".toList

end Criterion

/-! ## Filters -/

/-- A criterion, and the style in which it reads paths. -/
structure NameFilter where
  /-- What is tested. -/
  criterion : Criterion
  /-- The style in which paths are read. -/
  style : StyleChoice
  deriving DecidableEq, Repr

/-- Whether a filter accepts a path when the system has the given style. -/
def NameFilter.accepts (system : Style) (filter : NameFilter) (t : Text) :
    Except PathError Bool :=
  filter.criterion.acceptsUnder system filter.style t

/-- Whether every filter of a list accepts a path. The first one that rejects it decides, and
the filters after it are not applied. -/
def acceptedByAll (system : Style) : List NameFilter → Text → Except PathError Bool
  | [], _ => .ok true
  | filter :: rest, t => do
    if ← filter.accepts system t then acceptedByAll system rest t
    else return false

/-- The paths that every filter accepts, in order; the first error is the answer. -/
def select (system : Style) (filters : List NameFilter) : List Text → Except PathError (List Text)
  | [] => .ok []
  | t :: rest => do
    let accepted ← acceptedByAll system filters t
    let others ← select system filters rest
    return if accepted then t :: others else others

end Pathname
