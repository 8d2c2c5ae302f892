import Pathname.Proofs.AmbientStyle
import Pathname.Session

/-!
# The style of the system

What is asked in a style of its own does not depend on the style of the system. What is asked
without one is asked in the style that the system has at that moment; for a filter this is the
moment at which it is applied, whatever the style of the system was when it was made, and however
often it changed in between.

Every operation has the style of the system within reach, and `Query.answerUnder_eq` says that none
makes use of it beyond the style that its choice comes to. What is left to show is what a session
remembers and what it forgets.

- `Session.find_after`: a filter is kept until another one is kept under its name.
- `Session.run_of_isExplicit`: a session in which no style is omitted.
- `system_matters_only_where_style_omitted`: **the main statement**.
-/

namespace Pathname

variable {system other : Style} {filter : NameFilter} {filters : List NameFilter}
  {name value : Text} {names values : List Text} {a b session : Session} {step : Step}
  {steps : List Step}

/-! ## Kept filters -/

/-- The name under which a step keeps a filter. -/
def Step.keptName? : Step → Option Text
  | keep name _ => some name
  | _ => none

namespace Session

/-- A session after some steps. -/
def after (session : Session) : List Step → Session
  | [] => session
  | first :: rest => (session.step first).2.after rest

theorem find_keep : (session.step (.keep name filter)).2.find name = .ok filter := by
  have hlookup : (session.step (.keep name filter)).2.filters.lookup name = some filter :=
    List.lookup_cons_self
  rw [find, hlookup]

/-- A step leaves the filter under a name alone, unless it keeps one under that name. -/
theorem find_step (hname : step.keptName? ≠ some name) :
    (session.step step).2.find name = session.find name := by
  cases step with
  | keep kept filter =>
    have hne : (name == kept) = false := by
      apply beq_eq_false_iff_ne.mpr
      intro heq
      exact hname (congrArg some heq.symm)
    have hlookup : (session.step (.keep kept filter)).2.filters.lookup name =
        session.filters.lookup name := by
      show ((kept, filter) :: session.filters).lookup name = _
      rw [List.lookup_cons, hne]
    rw [find, find, hlookup]
  | system | detect | apply | select | request => rfl

/-- Steps leave the filter under a name alone, unless one of them keeps one under that name. -/
theorem find_after (hnames : ∀ step ∈ steps, step.keptName? ≠ some name) :
    (session.after steps).find name = session.find name := by
  induction steps generalizing session with
  | nil => rfl
  | cons first rest ih =>
    have hfirst := hnames first List.mem_cons_self
    have hrest : ((session.step first).2.after rest).find name = (session.step first).2.find name :=
      ih fun step hstep => hnames step (List.mem_cons_of_mem first hstep)
    exact hrest.trans (find_step hfirst)

theorem step_apply_of_error {e : Failure} (hfind : session.find name = .error e) :
    (session.step (.apply name value)).1 = .error e := by
  show (session.find name >>= fun filter => _) = _
  rw [hfind]
  rfl

/-- The verdict of a kept filter is the one that it gives under the style of the system. -/
theorem step_apply (hfind : session.find name = .ok filter) :
    (session.step (.apply name value)).1 =
      match filter.accepts session.system value with
      | .ok verdict => .ok (.reply (.flag verdict))
      | .error e => .error (.path e) := by
  show (session.find name >>= fun filter => _) = _
  rw [hfind]
  rfl

theorem step_select_of_error {e : Failure} (hfind : names.mapM session.find = .error e) :
    (session.step (.select names values)).1 = .error e := by
  show (names.mapM session.find >>= fun filters => _) = _
  rw [hfind]
  rfl

/-- The paths that are selected are those that the filters accept under the style of the system. -/
theorem step_select (hfind : names.mapM session.find = .ok filters) :
    (session.step (.select names values)).1 =
      match Pathname.select session.system filters values with
      | .ok accepted => .ok (.texts accepted)
      | .error e => .error (.path e) := by
  show (names.mapM session.find >>= fun filters => _) = _
  rw [hfind]
  rfl

end Session

/-! ## Sessions without omitted styles -/

/-- A request omits no style, and does not ask for the style of the system. -/
def Request.IsExplicit : Request → Prop
  | .query choice _ => choice ≠ .system
  | .filter made _ => made.style ≠ .system
  | .style _ => False
  | _ => True

/-- A step omits no style, and does not ask for the style of the system. -/
def Step.IsExplicit : Step → Prop
  | .keep _ filter => filter.style ≠ .system
  | .request made => made.IsExplicit
  | _ => True

theorem StyleChoice.resolve_of_ne_system {choice : StyleChoice} (h : choice ≠ .system) :
    choice.resolve system = choice.resolve other := by
  cases choice with
  | system => exact absurd rfl h
  | fixed style => rfl

/-- A filter tests in the style that its choice comes to when it is applied. -/
theorem NameFilter.accepts_eq (system : Style) (filter : NameFilter) (t : Text) :
    filter.accepts system t = filter.criterion.accepts (filter.style.resolve system) t :=
  Criterion.acceptsUnder_eq filter.criterion

theorem NameFilter.accepts_of_ne_system (h : filter.style ≠ .system) :
    filter.accepts system = filter.accepts other := by
  funext t
  rw [accepts_eq, accepts_eq, StyleChoice.resolve_of_ne_system h]

theorem acceptedByAll_of_ne_system (h : ∀ filter ∈ filters, filter.style ≠ .system) (t : Text) :
    acceptedByAll system filters t = acceptedByAll other filters t := by
  induction filters with
  | nil => rfl
  | cons filter rest ih =>
    have hfilter := h filter List.mem_cons_self
    have hrest := ih fun filter hmem => h filter (List.mem_cons_of_mem _ hmem)
    rw [acceptedByAll, acceptedByAll, NameFilter.accepts_of_ne_system hfilter, hrest]

theorem select_of_ne_system (h : ∀ filter ∈ filters, filter.style ≠ .system) :
    select system filters values = select other filters values := by
  induction values with
  | nil => rfl
  | cons t rest ih => rw [select, select, acceptedByAll_of_ne_system h, ih]

/-- The response to a query is the answer in the style that its choice comes to. -/
theorem Request.respond_query (system : Style) (choice : StyleChoice) (question : Query) :
    (Request.query choice question).respond system =
      match question.answer (choice.resolve system) with
      | .ok reply => .ok (.reply reply)
      | .error e => .error (.path e) := by
  have hunder : question.answerUnder system choice = question.answer (choice.resolve system) :=
    question.answerUnder_eq
  cases hanswer : question.answer (choice.resolve system) with
  | ok reply => simp only [respond, hunder, hanswer]
  | error e => simp only [respond, hunder, hanswer]

theorem Request.respond_of_isExplicit {request : Request} (h : request.IsExplicit) :
    request.respond system = request.respond other := by
  cases request with
  | query choice question =>
    have hstyle : choice.resolve system = choice.resolve other :=
      StyleChoice.resolve_of_ne_system h
    rw [respond_query, respond_query, hstyle]
  | filter made values =>
    have hverdicts : made.accepts system = made.accepts other :=
      NameFilter.accepts_of_ne_system h
    rw [respond, respond, hverdicts]
  | style choice => exact h.elim
  | flip | isSeparator | separator | platform | detect | policyNamed | policyOrElse
    | lastSeparator | host | tokens | error => rfl

namespace Session

/-- What is found under several names was found under one of them. -/
theorem exists_find_of_mapM (hfind : names.mapM session.find = .ok filters) :
    ∀ filter ∈ filters, ∃ name, session.find name = .ok filter := by
  induction names generalizing filters with
  | nil =>
    obtain rfl : [] = filters := Except.ok.inj hfind
    intro filter hmem
    exact absurd hmem List.not_mem_nil
  | cons name rest ih =>
    rw [List.mapM_cons] at hfind
    cases hfirst : session.find name with
    | error e =>
      rw [hfirst] at hfind
      contradiction
    | ok first =>
      cases hothers : rest.mapM session.find with
      | error e =>
        rw [hfirst, hothers] at hfind
        contradiction
      | ok others =>
        rw [hfirst, hothers] at hfind
        obtain rfl : first :: others = filters := Except.ok.inj hfind
        intro filter hmem
        rcases List.mem_cons.mp hmem with rfl | hmem
        · exact ⟨name, hfirst⟩
        · exact ih hothers filter hmem

/-- Two sessions remember the same filters, and none of these omits its style. -/
structure SameFilters (a b : Session) : Prop where
  /-- The filters are the same. -/
  find_eq : ∀ name, a.find name = b.find name
  /-- None of them omits its style. -/
  ne_system : ∀ name filter, a.find name = .ok filter → filter.style ≠ .system

namespace SameFilters

/-- An explicit step leaves two sessions with the same filters if they had the same before. -/
theorem next (h : SameFilters a b) (hstep : step.IsExplicit) :
    SameFilters (a.step step).2 (b.step step).2 := by
  cases step with
  | keep kept filter =>
    constructor
    · intro name
      by_cases hname : (Step.keep kept filter).keptName? = some name
      · obtain rfl : kept = name := Option.some.inj hname
        rw [find_keep, find_keep]
      · rw [find_step hname, find_step hname, h.find_eq]
    · intro name found hfind
      by_cases hname : (Step.keep kept filter).keptName? = some name
      · obtain rfl : kept = name := Option.some.inj hname
        rw [find_keep] at hfind
        rw [← Except.ok.inj hfind]
        exact hstep
      · rw [find_step hname] at hfind
        exact h.ne_system name found hfind
  | system | detect | apply | select | request => exact ⟨h.find_eq, h.ne_system⟩

/-- An explicit step has the same outcome in two sessions with the same filters. -/
theorem outcome (h : SameFilters a b) (hstep : step.IsExplicit) :
    (a.step step).1 = (b.step step).1 := by
  cases step with
  | system | detect | keep => rfl
  | apply name value =>
    have hname := h.find_eq name
    cases hfind : a.find name with
    | error e => rw [step_apply_of_error hfind, step_apply_of_error (hname ▸ hfind)]
    | ok filter =>
      have haccepts : filter.accepts a.system = filter.accepts b.system :=
        NameFilter.accepts_of_ne_system (h.ne_system name filter hfind)
      rw [step_apply hfind, step_apply (hname ▸ hfind), haccepts]
  | select names values =>
    have hnames : names.mapM a.find = names.mapM b.find := congrArg names.mapM (funext h.find_eq)
    cases hfind : names.mapM a.find with
    | error e => rw [step_select_of_error hfind, step_select_of_error (hnames ▸ hfind)]
    | ok filters =>
      have hne : ∀ filter ∈ filters, filter.style ≠ .system := by
        intro filter hmem
        obtain ⟨name, hname⟩ := exists_find_of_mapM hfind filter hmem
        exact h.ne_system name filter hname
      have hselect : Pathname.select a.system filters values =
          Pathname.select b.system filters values := select_of_ne_system hne
      rw [step_select hfind, step_select (hnames ▸ hfind), hselect]
  | request request => exact Request.respond_of_isExplicit hstep

end SameFilters

/-- Where neither the filters that are kept nor the steps that
are taken omit a style, the outcomes do not depend on the style of the system. -/
theorem run_of_isExplicit (h : SameFilters a b) (hsteps : ∀ step ∈ steps, step.IsExplicit) :
    a.run steps = b.run steps := by
  induction steps generalizing a b with
  | nil => rfl
  | cons first rest ih =>
    have hfirst := hsteps first List.mem_cons_self
    have hrest := ih (h.next hfirst) fun step hstep =>
      hsteps step (List.mem_cons_of_mem first hstep)
    show (a.step first).1 :: (a.step first).2.run rest = _
    rw [h.outcome hfirst, hrest]
    rfl

end Session

/-! ## Omitted styles -/

/-- **The style of the system matters only where a style is omitted.** Whoever asks a question with a
choice of style, or tests a path with a filter that was made with one, is answered in the style that
the choice comes to. So in a given style, a question has the same answer or error under both styles of
the system. Without a style it has the answer or error that it has in the style of the system. A filter
that was made without a style, in any session and with any steps taken since, gives the verdict of the
same filter made in the style that the system has now; that one may belong to another session, with
other steps taken since, and under another style of the system. -/
theorem system_matters_only_where_style_omitted :
    (∀ (system : Style) (choice : StyleChoice) (question : Query),
      question.answerUnder system choice = question.answer (choice.resolve system)) ∧
    (∀ (system : Style) (filter : NameFilter) (t : Text),
      filter.accepts system t = filter.criterion.accepts (filter.style.resolve system) t) ∧
    (∀ (style system other : Style) (question : Query),
      (Request.query (.fixed style) question).respond system =
        (Request.query (.fixed style) question).respond other) ∧
    (∀ (system other : Style) (question : Query),
      (Request.query .system question).respond system =
        (Request.query (.fixed system) question).respond other) ∧
    (∀ (a b : Session) (criterion : Criterion) (name name' value : Text) (since since' : List Step),
      (∀ step ∈ since, step.keptName? ≠ some name) →
      (∀ step ∈ since', step.keptName? ≠ some name') →
      let omitted := (a.step (.keep name ⟨criterion, .system⟩)).2.after since
      let given := (b.step (.keep name' ⟨criterion, .fixed omitted.system⟩)).2.after since'
      (omitted.step (.apply name value)).1 = (given.step (.apply name' value)).1) := by
  refine ⟨fun _ _ question => question.answerUnder_eq, NameFilter.accepts_eq, ?given, ?omitted,
    ?filters⟩
  case given =>
    intro style system other question
    exact Request.respond_of_isExplicit nofun
  case omitted =>
    intro system other question
    rw [Request.respond_query, Request.respond_query]
    rfl
  case filters =>
    intro a b criterion name name' value since since' hsince hsince' omitted given
    have homitted : omitted.find name = .ok ⟨criterion, .system⟩ :=
      (Session.find_after hsince).trans Session.find_keep
    have hgiven : given.find name' = .ok ⟨criterion, .fixed omitted.system⟩ :=
      (Session.find_after hsince').trans Session.find_keep
    rw [Session.step_apply homitted, Session.step_apply hgiven, NameFilter.accepts_eq,
      NameFilter.accepts_eq]
    rfl

/-- A filter that was made in a system without streams rejects a stream after the system has
changed to one with streams. -/
theorem filter_follows_system :
    (∀ step ∈ [Step.system .windows], step.keptName? ≠ some "f".toList) ∧
    ((((⟨.unix, []⟩ : Session).step
      (.keep "f".toList ⟨.extensions ["txt".toList], .system⟩)).2.after [.system .windows]).step
      (.apply "f".toList "x/a:b.txt".toList)).1 = .ok (.reply (.flag false)) := by
  have hsince : ∀ step ∈ [Step.system .windows], step.keptName? ≠ some "f".toList := by
    decide
  have hsame := system_matters_only_where_style_omitted.2.2.2.2 ⟨.unix, []⟩ ⟨.unix, []⟩
    (.extensions ["txt".toList]) "f".toList "f".toList "x/a:b.txt".toList [.system .windows] []
    hsince (fun _ hmem => absurd hmem List.not_mem_nil)
  have hgiven : (((⟨.unix, []⟩ : Session).step
      (.keep "f".toList ⟨.extensions ["txt".toList], .fixed .windows⟩)).2.step
      (.apply "f".toList "x/a:b.txt".toList)).1 = .ok (.reply (.flag false)) := by rfl
  exact ⟨hsince, hsame.trans hgiven⟩

end Pathname
