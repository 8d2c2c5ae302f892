import Pathname.Query

/-!
# Sessions

A session remembers the style of the system and filters by name. Requests are made of it one
after another; most of them leave it as it is.

## Contents

- `Request`, `Response`, `Request.respond`: what can be asked without a memory.
- `Session`, `Step`, `Session.step`, `Session.run`: the memory.
-/

namespace Pathname

/-! ## Requests -/

/-- Why a request has no response. -/
inductive Failure where
  /-- A path is at fault. -/
  | path (error : PathError)
  /-- An argument is not what it has to be. -/
  | misuse (misuse : Misuse)
  /-- No filter has the given name. -/
  | unknownFilter (name : Text)
  deriving DecidableEq, Repr

/-- Something to be done under the style that the system has. -/
inductive Request where
  /-- Answer a query in a style. -/
  | query (style : StyleChoice) (question : Query)
  /-- Describe a style. -/
  | style (style : StyleChoice)
  /-- Turn the text of a separator into that of the other one. -/
  | flip (t : Text)
  /-- Tell whether a text is a separator. -/
  | isSeparator (t : Text)
  /-- Give the text of a separator. -/
  | separator (isSlash : Bool)
  /-- Give the style of a platform. -/
  | platform (name : Text)
  /-- Give the style of a machine. -/
  | detect (environment : Environment)
  /-- Give the policy with a display name. -/
  | policyNamed (name : Text)
  /-- Give a policy, or another one where it is absent. -/
  | policyOrElse (policy : Option CasePolicy) (default : CasePolicy)
  /-- Find the last separator of a path. -/
  | lastSeparator (path : Option Text)
  /-- Report on a text as a host. -/
  | host (t : Text)
  /-- Split a pattern. -/
  | tokens (pattern : Text)
  /-- Describe a filter, and apply it to several paths. -/
  | filter (made : NameFilter) (values : List Text)
  /-- Show an error. -/
  | error (error : PathError)
  deriving DecidableEq, Repr

/-- What a request yields. -/
inductive Response where
  /-- The reply to a query. -/
  | reply (reply : Reply)
  /-- A style, together with that of the system. -/
  | styles (style system : Style)
  /-- A style. -/
  | style (style : Style)
  /-- A policy. -/
  | policy (policy : CasePolicy)
  /-- Several texts. -/
  | texts (texts : List Text)
  /-- A report on a host. -/
  | host (report : Host.Report)
  /-- The text under which a filter is shown, and its verdicts. -/
  | verdicts (description : Text) (verdicts : List (Except PathError Bool))
  /-- An error that is shown rather than raised. -/
  | error (error : PathError)

/-- The response to a request when the system has the given style. -/
def Request.respond (system : Style) : Request → Except Failure Response
  | query choice question =>
    match question.answerUnder system choice with
    | .ok reply => .ok (.reply reply)
    | .error e => .error (.path e)
  | style choice => .ok (.styles (choice.resolve system) system)
  | flip t =>
    match Separator.ofText? t with
    | some s => .ok (.reply (.text (some [s.flip.char])))
    | none => .error (.misuse (.notSeparator t))
  | isSeparator t => .ok (.reply (.flag (Separator.ofText? t).isSome))
  | separator isSlash => .ok (.reply (.text (some [(Separator.ofIsSlash isSlash).char])))
  | platform name => .ok (.style (.ofPlatform name))
  | detect environment => .ok (.style environment.style)
  | policyNamed name =>
    match CasePolicy.ofDisplayName name with
    | .ok policy => .ok (.policy policy)
    | .error e => .error (.misuse e)
  | policyOrElse given default => .ok (.policy (given.getD default))
  | lastSeparator path => .ok (.reply (.position (path.bind lastSeparator?)))
  | host t => .ok (.host (Host.report t))
  | tokens pattern => .ok (.texts ((Glob.tokens pattern).map Glob.Token.text))
  | filter made values =>
    .ok (.verdicts made.criterion.describe (values.map (made.accepts system)))
  | error e => .ok (.error e)

/-! ## The memory -/

/-- What a session remembers. -/
structure Session where
  /-- The style of the system. -/
  system : Style
  /-- The filters by name, the latest first. -/
  filters : List (Text × NameFilter) := []
  deriving DecidableEq, Repr

/-- One step of a session. -/
inductive Step where
  /-- Set the style of the system. -/
  | system (style : Style)
  /-- Set the style of the system to that of a machine. -/
  | detect (environment : Environment)
  /-- Keep a filter under a name. -/
  | keep (name : Text) (filter : NameFilter)
  /-- Apply a filter to a path. -/
  | apply (name : Text) (value : Text)
  /-- Give the paths that several filters accept. -/
  | select (names : List Text) (values : List Text)
  /-- Make a request. -/
  | request (request : Request)
  deriving DecidableEq, Repr

namespace Session

/-- The filter that was last kept under a name. -/
def find (session : Session) (name : Text) : Except Failure NameFilter :=
  match session.filters.lookup name with
  | some filter => .ok filter
  | none => .error (.unknownFilter name)

/-- What a step yields, and the session after it. -/
def step (session : Session) : Step → Except Failure Response × Session
  | .system style => (.ok (.style style), { session with system := style })
  | .detect environment =>
    (.ok (.style environment.style), { session with system := environment.style })
  | .keep name filter =>
    (.ok (.reply (.text (some filter.criterion.describe))),
      { session with filters := (name, filter) :: session.filters })
  | .apply name value =>
    (do
      let filter ← session.find name
      match filter.accepts session.system value with
      | .ok verdict => return .reply (.flag verdict)
      | .error e => throw (.path e),
      session)
  | .select names values =>
    (do
      let filters ← names.mapM session.find
      match Pathname.select session.system filters values with
      | .ok accepted => return .texts accepted
      | .error e => throw (.path e),
      session)
  | .request request => (request.respond session.system, session)

/-- What the steps of a session yield, in order. -/
def run : Session → List Step → List (Except Failure Response)
  | _, [] => []
  | session, first :: rest =>
    let (outcome, next) := session.step first
    outcome :: run next rest

end Session

end Pathname
