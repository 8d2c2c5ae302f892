import Pathname.Ambient

/-!
# Transforms

The operations that turn a path into a path. Where the path is absent the result is absent too,
except that an addition with a root of its own needs no base.

## Contents

- `Transform`, `Transform.apply`: one operation in a style.
- `Transform.applyUnder`: one operation, with a choice of style, as it is called.
- `Stage`, `runPipeline`: one operation after another.
-/

namespace Pathname

/-- An operation that turns a path into a path. -/
inductive Transform where
  /-- One separator in place of both; without a choice, that of the style. -/
  | unify (separator : Option Separator)
  /-- The normal form; without a choice, in the separator of the style. -/
  | normalize (separator : Option Separator) (keepEnd : Bool)
  /-- The normal form without a separator at its end. -/
  | normalizeNoEnd (separator : Option Separator)
  /-- A part of the path. -/
  | part (part : PathPart)
  /-- The path that an addition leads to. -/
  | append (addition : Text)
  deriving DecidableEq, Repr

namespace Transform

/-- What an operation makes of a path in a style. -/
def apply (style : Style) : Transform → Option Text → Except PathError (Option Text)
  | append addition, base => join style base addition
  | unify _, none => .ok none
  | normalize _ _, none => .ok none
  | normalizeNoEnd _, none => .ok none
  | part _, none => .ok none
  | unify separator, some t => .ok (some ((separator.getD style.separator).unify t))
  | normalize separator keepEnd, some t =>
    Pathname.normalize style (separator.getD style.separator) keepEnd t
  | normalizeNoEnd separator, some t =>
    Pathname.normalize style (separator.getD style.separator) false t
  | part p, some t => (p.extract style t).map some

/-- What an operation makes of a path, when the system has the given style. -/
def applyUnder (system : Style) (choice : StyleChoice) :
    Transform → Option Text → Except PathError (Option Text)
  | append addition, base => Ambient.join system choice base addition
  | unify _, none => .ok none
  | normalize _ _, none => .ok none
  | normalizeNoEnd _, none => .ok none
  | part _, none => .ok none
  | unify (some separator), some t => .ok (some (separator.unify t))
  | unify none, some t => .ok (some (Ambient.unify system choice t))
  | normalize separator keepEnd, some t => Ambient.normalize system choice separator keepEnd t
  | normalizeNoEnd separator, some t => Ambient.normalizeNoEnd system choice separator t
  | part p, some t => (Ambient.extract system choice t p).map some

end Transform

/-! ## Pipelines -/

/-- One operation of a pipeline. -/
structure Stage where
  /-- The operation. -/
  transform : Transform
  /-- The style of this stage, if it is not that of the pipeline. -/
  style : Option StyleChoice
  deriving DecidableEq, Repr

/-- The results of operations that are applied one after another, each of them to the result of
the one before it. An error is a result, but leaves the path as it was. -/
def runPipeline (system : Style) (style : StyleChoice) :
    List Stage → Option Text → List (Except PathError (Option Text))
  | [], _ => []
  | stage :: rest, current =>
    let outcome := stage.transform.applyUnder system (stage.style.getD style) current
    let next :=
      match outcome with
      | .ok t => t
      | .error _ => current
    outcome :: runPipeline system style rest next

end Pathname
