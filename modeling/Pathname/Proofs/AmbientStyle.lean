import Pathname.Proofs.FirstOccurrence
import Pathname.Proofs.StackMachine
import Pathname.Query

/-!
# Operations under an ambient style

An operation with a choice of style is the same operation in the style that the choice comes to. This
is said of one operation after another, from those that look the choice up to those that only hand it
on; each equation uses those of the operations that are called, so an operation that did not hand its
choice on would have none.

- `Ambient.rootLength_eq` to `Ambient.wildcardOnSystem_eq`: the operations.
- `Criterion.acceptsUnder_eq`, `Transform.applyUnder_eq`: filters and transforms.
- `Query.answerUnder_eq`: **everything that can be asked**.
-/

namespace Pathname

variable {system : Style} {choice : StyleChoice} {t : Text}

namespace Ambient

/-- Two computations are equal if they begin alike and go on alike. -/
theorem bind_eq_bind {α β : Type} {first second : Except PathError α}
    {next next' : α → Except PathError β} (h : first = second) (hnext : ∀ a, next a = next' a) :
    first >>= next = second >>= next' := by
  subst h
  exact bind_congr hnext

/-! ## Roots -/

theorem rootLength_eq : rootLength system choice t = Root.lengthOf (choice.resolve system) t := by
  unfold rootLength Root.lengthOf Root.ofText classify
  cases Root.classify (choice.resolve system) t <;> rfl

/-- An operation that needs only the length of a root may ask for the root. -/
theorem rootLength_bind {α : Type} (next : Nat → Except PathError α) :
    rootLength system choice t >>= next =
      Root.ofText (choice.resolve system) t >>= fun root => next root.length := by
  rw [rootLength_eq, Root.lengthOf]
  cases Root.ofText (choice.resolve system) t <;> rfl

theorem rootText_eq : rootText system choice t = Root.textOf (choice.resolve system) t := by
  unfold rootText Root.textOf
  refine (rootLength_bind _).trans (bind_congr fun root => bind_congr fun t => ?_)
  simp only [Root.exceeds, decide_eq_true_eq]

/-! ## Normal forms and joins -/

theorem normalize_eq (separator : Option Separator) (keepEnd : Bool) :
    normalize system choice separator keepEnd t =
      Pathname.normalize (choice.resolve system)
        (separator.getD (choice.resolve system).separator) keepEnd t := by
  rw [← normalizeInPlace_eq]
  unfold normalize normalizeIn normalizeInPlace
  simp only [rootLength_eq, StyleChoice.resolve]

theorem normalizeNoEnd_eq (separator : Option Separator) :
    normalizeNoEnd system choice separator t =
      Pathname.normalize (choice.resolve system)
        (separator.getD (choice.resolve system).separator) false t :=
  normalize_eq separator false

theorem join_eq (base : Option Text) (addition : Text) :
    join system choice base addition = Pathname.join (choice.resolve system) base addition := by
  unfold join Pathname.join
  refine (rootLength_bind _).trans (bind_congr fun root => ?_)
  cases base <;> simp only [normalize_eq, Option.getD_none]

/-! ## Parts of a path -/

theorem streamStart_eq : streamStart system t = Pathname.streamStart t := rfl

theorem extensionDot?_eq :
    extensionDot? system choice t = Pathname.extensionDot? (choice.resolve system) t := by
  unfold extensionDot? Pathname.extensionDot? hasStreamMarker
  rw [streamStart_eq]

theorem fullPath_eq (withEnd : Bool) :
    fullPath system choice withEnd t = Pathname.fullPath (choice.resolve system) withEnd t := by
  unfold fullPath Pathname.fullPath
  refine (rootLength_bind _).trans (bind_congr fun root => ?_)
  cases lastSeparator? t <;> simp only [rootText_eq]

theorem directories_eq (withEnd : Bool) :
    directories system choice withEnd t =
      Pathname.directories (choice.resolve system) withEnd t := by
  unfold directories Pathname.directories
  refine (rootLength_bind _).trans (bind_congr fun root => ?_)
  cases lastSeparator? t <;> rfl

theorem fileName_eq :
    fileName system choice t = Pathname.fileName (choice.resolve system) t := by
  unfold fileName Pathname.fileName
  exact rootLength_bind _

theorem withoutExtension_eq :
    withoutExtension system choice t = Pathname.withoutExtension (choice.resolve system) t := by
  unfold withoutExtension Pathname.withoutExtension
  refine bind_congr fun t => bind_eq_bind extensionDot?_eq fun dot => ?_
  cases dot <;> rfl

theorem baseName_eq :
    baseName system choice t = Pathname.baseName (choice.resolve system) t := by
  unfold baseName Pathname.baseName
  refine bind_eq_bind fileName_eq fun name => ?_
  exact bind_eq_bind extensionDot?_eq fun _ => withoutExtension_eq

theorem extension_eq :
    extension system choice t = Pathname.extension (choice.resolve system) t := by
  unfold extension Pathname.extension
  refine (rootLength_bind _).trans (bind_congr fun root => bind_congr fun t => ?_)
  refine bind_eq_bind extensionDot?_eq fun dot => ?_
  cases dot <;> rfl

theorem hasExtension_eq (wanted : List Text) :
    hasExtension system choice wanted t =
      Pathname.hasExtension (choice.resolve system) wanted t := by
  unfold hasExtension Pathname.hasExtension
  simp only [extensionDot?_eq, extension_eq]

theorem extract_eq (part : PathPart) :
    extract system choice t part = part.extract (choice.resolve system) t := by
  cases part with
  | root => exact rootText_eq
  | fullPath | fullPathNoEnd => exact fullPath_eq _
  | path | pathNoEnd => exact directories_eq _
  | name => exact fileName_eq
  | baseName => exact baseName_eq
  | extension => exact extension_eq
  | allButExtension => exact withoutExtension_eq

/-! ## Case policies -/

variable {policy : CasePolicy} {text token : Text}

theorem resolvePolicy_eq :
    resolvePolicy system choice policy = policy.resolve (choice.resolve system) := by
  cases policy with
  | sensitive | insensitive => rfl
  | system =>
    show (if _ then CasePolicy.sensitive else .insensitive) = CasePolicy.ofRule (if _ then _ else _)
    cases (choice.resolve system).isCaseSensitive <;> rfl

theorem isCaseSensitive_eq :
    isCaseSensitive system choice policy = (policy.rule (choice.resolve system) == .exact) := by
  rw [isCaseSensitive, resolvePolicy_eq, CasePolicy.resolve]
  cases policy.rule (choice.resolve system) <;> rfl

theorem occursAt_eq (start : Int) :
    occursAt system choice policy text start token =
      (policy.rule (choice.resolve system)).occursAt text start token := by
  unfold occursAt CaseRule.occursAt
  rw [isCaseSensitive_eq]
  congr 1
  cases policy.rule (choice.resolve system) with
  | ignoring => rfl
  | exact =>
    show token.isPrefixOf _ = _
    rw [Bool.eq_iff_iff, List.isPrefixOf_iff_prefix, CaseRule.exact_beginsWith_iff]

/-- A text begins with a token if the token occurs at its beginning. -/
theorem occursAt_zero {rule : CaseRule} : rule.occursAt text 0 token = rule.beginsWith text token := by
  rw [Bool.eq_iff_iff]
  have hoccurs := @CaseRule.occursAt_natCast_iff rule text token 0
  simpa using hoccurs

theorem beginsWith_eq :
    beginsWith system choice policy text token =
      (policy.rule (choice.resolve system)).beginsWith text token := by
  rw [beginsWith, occursAt_eq, occursAt_zero]

theorem equals_eq (a b : Text) :
    equals system choice policy a b = (policy.rule (choice.resolve system)).equals a b := by
  rw [equals, occursAt_eq, occursAt_zero, CaseRule.equals]

theorem endsWith_eq :
    endsWith system choice policy text token =
      (policy.rule (choice.resolve system)).endsWith text token :=
  occursAt_eq _

theorem indexOf?_eq (start : Int) :
    indexOf? system choice policy text start token =
      (policy.rule (choice.resolve system)).indexOf? text start token := by
  unfold indexOf?
  simp only [isCaseSensitive_eq, occursAt_eq]
  cases policy.rule (choice.resolve system) with
  | exact => rfl
  | ignoring => exact CaseRule.indexByCounting?_eq .ignoring text start token

/-! ## Comparisons -/

theorem comparable_eq :
    comparable system choice t = Pathname.comparable (choice.resolve system) t := by
  unfold comparable Pathname.comparable
  rw [normalize_eq]
  rfl

theorem pathsEqual_eq (inNormalForm : Bool) (given : Option CasePolicy) (a b : Option Text) :
    pathsEqual system choice inNormalForm given a b =
      Pathname.pathsEqual (choice.resolve system) inNormalForm (given.getD .sensitive) a b := by
  cases a with
  | none => cases b <;> rfl
  | some a =>
    cases b with
    | none => rfl
    | some b =>
      unfold pathsEqual Pathname.pathsEqual
      dsimp only
      refine ite_congr rfl (fun _ => bind_eq_bind comparable_eq fun first => ?_)
        fun _ => congrArg Except.ok (equals_eq a b)
      cases first with
      | none => rfl
      | some first =>
        refine bind_eq_bind comparable_eq fun second => ?_
        cases second with
        | none => rfl
        | some second => exact congrArg pure (equals_eq first second)

theorem contains_eq (given : Option CasePolicy) (parent child : Option Text) :
    contains system choice given parent child =
      Pathname.contains ((given.getD .system).rule (choice.resolve system)) parent child := by
  match parent, child with
  | none, _ | some [], _ | some (_ :: _), none | some (_ :: _), some [] => rfl
  | some (p :: parent), some (c :: child) =>
    rw [contains, Pathname.contains, equals_eq, beginsWith_eq]

theorem rule_eq : rule system choice policy = policy.rule (choice.resolve system) := by
  rw [rule, isCaseSensitive_eq]
  cases policy.rule (choice.resolve system) <;> rfl

/-- A policy that has been resolved asks for the same rule under every style. -/
theorem rule_resolvePolicy (other : StyleChoice) :
    rule system other (resolvePolicy system choice policy) =
      policy.rule (choice.resolve system) := by
  rw [rule_eq, resolvePolicy_eq, CasePolicy.resolve, CasePolicy.rule_ofRule]

theorem wildcardMatch_eq (given : Option CasePolicy) (name pattern : Option Text) :
    wildcardMatch system choice given name pattern =
      Glob.wildcardMatch ((given.getD .sensitive).rule (choice.resolve system)) name pattern := by
  rw [wildcardMatch, rule_resolvePolicy]

end Ambient

/-! ## Filters -/

namespace Criterion

theorem acceptsExtensionUnder_eq (wanted : List Text) :
    acceptsExtensionUnder system choice wanted t =
      acceptsExtension (choice.resolve system) wanted t := by
  unfold acceptsExtensionUnder acceptsExtension
  rw [Ambient.extension_eq]

/-- A filter tests in the style that its choice comes to. -/
theorem acceptsUnder_eq (criterion : Criterion) :
    criterion.acceptsUnder system choice t = criterion.accepts (choice.resolve system) t := by
  cases criterion with
  | glob pattern policy =>
    exact congrArg Except.ok (Ambient.wildcardMatch_eq (some policy) (some t) (some pattern))
  | extensions wanted => exact acceptsExtensionUnder_eq wanted
  | samePath path inNormalForm policy =>
    exact Ambient.pathsEqual_eq inNormalForm (some policy) (some t) (some path)
  | insideDirectory directory policy =>
    exact congrArg Except.ok (Ambient.contains_eq (some policy) (some directory) (some t))

end Criterion

/-! ## Transforms and queries -/

theorem Transform.applyUnder_eq (operation : Transform) (path : Option Text) :
    operation.applyUnder system choice path = operation.apply (choice.resolve system) path := by
  cases operation with
  | append addition => exact Ambient.join_eq path addition
  | unify separator => cases separator <;> cases path <;> rfl
  | normalize separator keepEnd =>
    cases path with
    | none => rfl
    | some t => exact Ambient.normalize_eq separator keepEnd
  | normalizeNoEnd separator =>
    cases path with
    | none => rfl
    | some t => exact Ambient.normalizeNoEnd_eq separator
  | part part =>
    cases path with
    | none => rfl
    | some t =>
      show (Ambient.extract system choice t part).map some = _
      rw [Ambient.extract_eq]
      rfl

theorem PartsReport.ofPathUnder_eq (path : Option Text) :
    PartsReport.ofPathUnder system choice path =
      PartsReport.ofPath (choice.resolve system) path := by
  have hdot : pathExtensionDotUnder? system choice path =
      pathExtensionDot? (choice.resolve system) path := by
    cases path <;> rfl
  have hlength : Ambient.rootLength system choice = Root.lengthOf (choice.resolve system) :=
    funext fun t => Ambient.rootLength_eq
  unfold ofPathUnder ofPath
  simp only [Transform.applyUnder_eq, hdot, hlength]

/-- **A choice of style is handed on to everything that an answer makes use of.** -/
theorem Query.answerUnder_eq (question : Query) :
    question.answerUnder system choice = question.answer (choice.resolve system) := by
  cases question with
  | transform operation path =>
    exact congrArg (Except.map Reply.text) (operation.applyUnder_eq path)
  | root t probe => rfl
  | rootLength t => exact congrArg (Except.map Reply.length) Ambient.rootLength_eq
  | extensionDot path => cases path <;> rfl
  | hasExtension path wanted =>
    cases path with
    | none => rfl
    | some t => exact congrArg (Except.map Reply.flag) (Ambient.hasExtension_eq wanted.toList)
  | parts path => rw [answerUnder, answer, PartsReport.ofPathUnder_eq]
  | equal inNormalForm given a b =>
    exact congrArg (Except.map Reply.flag) (Ambient.pathsEqual_eq inNormalForm given a b)
  | equalOnSystem a b =>
    exact congrArg (Except.map Reply.flag) (Ambient.pathsEqual_eq false (some .system) a b)
  | equalNormalized a b =>
    exact congrArg (Except.map Reply.flag) (Ambient.pathsEqual_eq true none a b)
  | equalNormalizedOnSystem a b =>
    exact congrArg (Except.map Reply.flag) (Ambient.pathsEqual_eq true (some .system) a b)
  | contains given parent child => rw [answerUnder, answer, Ambient.contains_eq]
  | wildcard given name pattern => rw [answerUnder, answer, Ambient.wildcardMatch_eq]
  | wildcardOnSystem name pattern =>
    rw [answerUnder, answer, Ambient.wildcardOnSystem, Ambient.wildcardMatch_eq]
    rfl
  | policy given => rw [answerUnder, answer, Ambient.resolvePolicy_eq]
  | caseChecks given a b =>
    rw [answerUnder, answer, Ambient.equals_eq, Ambient.beginsWith_eq, Ambient.endsWith_eq]
  | occursAt given t start token => rw [answerUnder, answer, Ambient.occursAt_eq]
  | indexOf given t start token => rw [answerUnder, answer, Ambient.indexOf?_eq]

end Pathname
