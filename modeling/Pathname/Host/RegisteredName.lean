import Pathname.Text

/-!
# Registered names

Labels of ASCII letters, digits and hyphens with dots between them. A label does not begin with
a hyphen, and only the last one may be empty: a name may end in a dot.

## Contents

- `RegisteredName.isLabel`, `RegisteredName.areLabels`: one label, and all of them.
- `isRegisteredName`: the whole name.
-/

namespace Pathname.Host

namespace RegisteredName

/-- Whether a text is a label that is not empty. -/
def isLabel : Text → Bool
  | [] => false
  | c :: rest => c.isAlphanum && rest.all fun d => d.isAlphanum || d == '-'

/-- Whether each text is a label, where the last one may be empty. -/
def areLabels : List Text → Bool
  | [] => true
  | [label] => label.isEmpty || isLabel label
  | label :: next :: rest => isLabel label && areLabels (next :: rest)

end RegisteredName

/-- Whether a text is a registered name; the empty text is one. -/
def isRegisteredName (t : Text) : Bool :=
  RegisteredName.areLabels (Text.pieces (· == '.') t)

end Pathname.Host
