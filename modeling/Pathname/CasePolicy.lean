import Pathname.CaseRule
import Pathname.Style
import Pathname.Error

/-!
# Case policies

A caller asks for a case rule by a policy: one of the two rules, or whichever of them the style
of the path calls for.

## Contents

- `CasePolicy`, its display name and the way back.
- `CasePolicy.rule`: the rule under a style.
-/

namespace Pathname

/-- How a caller wants file names to be compared. -/
inductive CasePolicy where
  /-- Case always matters. -/
  | sensitive
  /-- Case never matters. -/
  | insensitive
  /-- Case matters if it does in the style of the path. -/
  | system
  deriving DecidableEq, Repr

namespace CasePolicy

/-- The name under which a policy is shown. -/
def displayName : CasePolicy → Text
  | sensitive => "Sensitive".toList
  | insensitive => "Insensitive".toList
  | system => "System".toList

/-- The policy with a display name. -/
def ofDisplayName (name : Text) : Except Misuse CasePolicy :=
  match [sensitive, insensitive, system].find? (fun policy => policy.displayName == name) with
  | some policy => .ok policy
  | none => .error (.unknownCasePolicy name)

/-- The rule that a policy asks for under a style. -/
def rule (style : Style) : CasePolicy → CaseRule
  | sensitive => .exact
  | insensitive => .ignoring
  | system => if style.isCaseSensitive then .exact else .ignoring

/-- The policy that always asks for a rule. -/
def ofRule : CaseRule → CasePolicy
  | .exact => sensitive
  | .ignoring => insensitive

/-- A policy without reference to the style: the one that always asks for the same rule. -/
def resolve (style : Style) (policy : CasePolicy) : CasePolicy := ofRule (policy.rule style)

@[simp] theorem ofDisplayName_displayName (policy : CasePolicy) :
    ofDisplayName policy.displayName = .ok policy := by
  cases policy <;> rfl

/-- The policy of a rule asks for that rule, whatever the style. -/
@[simp] theorem rule_ofRule (style : Style) (r : CaseRule) : (ofRule r).rule style = r := by
  cases r <;> rfl

end CasePolicy

end Pathname
