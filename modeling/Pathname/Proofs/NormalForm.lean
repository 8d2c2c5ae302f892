import Pathname.Proofs.RootGrammar

/-!
# Normal forms as written stacks

What `normalize` answers, said once and for all: an error for a NUL character, else an error for
a malformed root, else the segments behind the root read onto a stack and written out behind the
text of the root. Everything further about normal forms starts from `normalize_eq_ok_some_iff`
and from the few facts below about the text of a root; the pass over the characters is not looked
at again.

- `normalize_eq_ok_some_iff`: the texts that have a normal form, and their normal forms.
- `Rooted.rootText_append`: the text of a root, with anything behind it that is no part of the
  root, has that root again.
-/

namespace Pathname

open Segments (IsPlain Stays)

/-! ## Unified separators -/

namespace Separator

variable (separator : Separator)

@[simp] theorem unify_nil : separator.unify [] = [] := rfl

@[simp] theorem unify_cons (c : Char) (t : Text) :
    separator.unify (c :: t) =
      (if isSeparator c then separator.char else c) :: separator.unify t := rfl

@[simp] theorem unify_append (a b : Text) :
    separator.unify (a ++ b) = separator.unify a ++ separator.unify b := by
  simp [unify]

/-- Unifying forgets which separators there were. -/
@[simp] theorem unify_unify (other : Separator) (t : Text) :
    separator.unify (other.unify t) = separator.unify t := by
  induction t with
  | nil => rfl
  | cons c rest ih =>
    cases hc : isSeparator c <;> simp [hc, ih]

theorem unify_of_isPlain {t : Text} (h : IsPlain t) : separator.unify t = t := by
  induction t with
  | nil => rfl
  | cons c rest ih =>
    have hc : isSeparator c = false := h c (List.mem_cons_self ..)
    simp [hc, ih fun d hd => h d (List.mem_cons_of_mem _ hd)]

theorem unify_intercalate {other : Separator} {segments : List Text}
    (h : ∀ s ∈ segments, IsPlain s) :
    separator.unify ([other.char].intercalate segments) =
      [separator.char].intercalate segments := by
  induction segments with
  | nil => rfl
  | cons s rest ih =>
    have hs : separator.unify s = s := separator.unify_of_isPlain (h s (List.mem_cons_self ..))
    have hrest := ih fun r hr => h r (List.mem_cons_of_mem _ hr)
    cases rest with
    | nil => simpa using hs
    | cons s' more => simp [List.intercalate_cons_cons, hs, hrest]

theorem unify_write {other : Separator} {ended : Bool} {stack : List Text}
    (h : ∀ s ∈ stack, Stays s) :
    separator.unify (Segments.write other ended stack) =
      Segments.write separator ended stack := by
  have hplain : ∀ s ∈ stack.reverse, IsPlain s :=
    fun s hs => (h s (List.mem_reverse.mp hs)).plain
  unfold Segments.write
  rw [unify_append, separator.unify_intercalate hplain]
  split <;> simp

end Separator

/-! ## The text of a root -/

namespace Normal

variable {style : Style} {separator : Separator} {root : Root} {t : Text}

/-- The text of a root is completed by a separator exactly if the root is longer than its path. -/
theorem rootText_eq (separator : Separator) (h : Rooted style t root) :
    rootText separator root t = separator.unify (t.take root.length) ++
      if root.length = t.length + 1 then [separator.char] else [] := by
  have hexceeds : (if root.exceeds t then [separator.char] else []) =
      if root.length = t.length + 1 then [separator.char] else [] :=
    ite_congr (propext h.exceeds_iff) (fun _ => rfl) (fun _ => rfl)
  rw [rootText, hexceeds]

theorem length_rootText (separator : Separator) (h : Rooted style t root) :
    (rootText separator root t).length = root.length := by
  have hle := h.length_le
  rw [rootText_eq separator h, List.length_append, Separator.length_unify, List.length_take]
  split
  · rw [List.length_singleton]
    omega
  · rw [List.length_nil]
    omega

@[simp] theorem unify_rootText {other : Separator} :
    separator.unify (rootText other root t) = rootText separator root t := by
  unfold rootText
  rw [Separator.unify_append, Separator.unify_unify]
  split <;> simp

theorem rootText_of_le (h : root.length ≤ t.length) :
    rootText separator root t = separator.unify (t.take root.length) := by
  have hexceeds : root.exceeds t = false := by
    rw [Root.exceeds, decide_eq_false_iff_not]
    omega
  simp [rootText, hexceeds]

@[simp] theorem rootText_relative : rootText separator Root.relative t = [] := by
  simp [rootText, Root.relative, Root.exceeds]

theorem rootText_currentDrive (s : Separator) (rest : Text) :
    rootText separator .currentDrive (s.char :: rest) = [separator.char] := by
  simp [rootText, Root.currentDrive, Root.exceeds]

theorem rootText_driveRelative {letter : Char} (hletter : letter.isAlpha = true) (rest : Text) :
    rootText separator ⟨.driveRelative, 2⟩ (letter :: ':' :: rest) = [letter, ':'] := by
  rw [rootText_of_le (by simp)]
  simp [not_isSeparator_of_isAlpha hletter]

theorem rootText_driveAbsolute {letter : Char} (hletter : letter.isAlpha = true) (s : Separator)
    (rest : Text) : rootText separator ⟨.driveAbsolute, 3⟩ (letter :: ':' :: s.char :: rest) =
      [letter, ':', separator.char] := by
  rw [rootText_of_le (by simp)]
  simp [not_isSeparator_of_isAlpha hletter]

theorem rootText_server {host : Text} (hplain : IsPlain host) (s₁ s₂ s₃ : Separator)
    (rest : Text) : rootText separator ⟨.server, host.length + 3⟩
      (s₁.char :: s₂.char :: (host ++ s₃.char :: rest)) =
        separator.char :: separator.char :: (host ++ [separator.char]) := by
  have htake : (host ++ s₃.char :: rest).take (host.length + 1) = host ++ [s₃.char] :=
    List.take_length_add_append 1
  rw [rootText_of_le (by simp)]
  simp [htake, separator.unify_of_isPlain hplain]

theorem rootText_home {user : Text} (hplain : IsPlain user) (s : Separator) (rest : Text) :
    rootText separator (.homeOf user) ('~' :: (user ++ s.char :: rest)) =
      '~' :: (user ++ [separator.char]) := by
  have htake : (user ++ s.char :: rest).take (user.length + 1) = user ++ [s.char] :=
    List.take_length_add_append 1
  rw [rootText_of_le (by simp [Root.homeOf])]
  simp [Root.homeOf, htake, separator.unify_of_isPlain hplain]

/-- The one root that is longer than its path is completed. -/
theorem rootText_bareHome {user : Text} (hplain : IsPlain user) :
    rootText separator (.homeOf user) ('~' :: user) = '~' :: (user ++ [separator.char]) := by
  have htake : ('~' :: user).take (user.length + 2) = '~' :: user :=
    List.take_of_length_le (by simp)
  simp [rootText, Root.homeOf, Root.exceeds, htake, separator.unify_of_isPlain hplain]

end Normal

/-- **A root is found again behind its own text.** What follows the text of the root must not be
taken for a part of it: a separator would be one behind a single separator or a drive, and so
would be a colon behind a backslash, and nothing at all behind a drive where no drive stands
alone. -/
theorem Rooted.rootText_append {style : Style} {separator : Separator} {root : Root} {t u : Text}
    (h : Rooted style t root) (hkind : root.kind ≠ .relative)
    (hcurrent : root.kind = .currentDrive →
      BeginsPlain u ∧ (u.head? = some ':' → separator = .slash))
    (hdrive : root.kind = .driveRelative →
      BeginsPlain u ∧ (u = [] → style.hasBareDrives = true)) :
    Rooted style (Normal.rootText separator root t ++ u) root := by
  cases h with
  | empty | relative | letterColon => exact absurd rfl hkind
  | currentDrive =>
    rw [Normal.rootText_currentDrive]
    exact Rooted.currentDrive (hcurrent rfl).1 (hcurrent rfl).2
  | driveRelative hletter =>
    rw [Normal.rootText_driveRelative hletter]
    exact Rooted.driveRelative hletter (hdrive rfl).1 (hdrive rfl).2
  | driveAbsolute hletter =>
    rw [Normal.rootText_driveAbsolute hletter]
    exact Rooted.driveAbsolute hletter
  | server hne hplain hvalid =>
    rw [Normal.rootText_server hplain, List.cons_append, List.cons_append, List.append_assoc]
    exact Rooted.server hne hplain hvalid
  | home hplain =>
    rw [Normal.rootText_home hplain, List.cons_append, List.append_assoc]
    exact Rooted.home hplain
  | bareHome hplain =>
    -- The completed root is that of a home with a separator behind it.
    rw [Normal.rootText_bareHome hplain, List.cons_append, List.append_assoc]
    exact Rooted.home hplain

/-- What begins with the text of a root has that root, or one of another kind. -/
theorem Rooted.eq_of_rootText_append {style : Style} {separator : Separator} {root root' : Root}
    {t u : Text} (h : Rooted style t root)
    (h' : Rooted style (Normal.rootText separator root t ++ u) root')
    (hkind : root'.kind = root.kind) : root' = root := by
  -- Only the roots that hold a name have to be read again, the others are told by their kind.
  by_cases hname : root.kind = .server ∨ root.kind = .homeNamedUser
  · have hagain : Rooted style (Normal.rootText separator root t ++ u) root := by
      apply h.rootText_append
      · rcases hname with hname | hname <;> simp [hname]
      · intro hcurrent
        rcases hname with hname | hname <;> simp [hname] at hcurrent
      · intro hdrive
        rcases hname with hname | hname <;> simp [hname] at hdrive
    exact hagain.unique h'
  · rw [not_or] at hname
    exact h.eq_of_kind_eq h' hkind hname.1 hname.2

/-! ## The answers of `normalize` -/

section Answers

variable {style : Style} {separator : Separator} {keepEnd : Bool} {t : Text}

theorem normalize_of_nul (h : '\x00' ∈ t) :
    normalize style separator keepEnd t = .error ⟨.nulCharacter, t⟩ := by
  rw [normalize, rejectNul_of_mem h]
  rfl

/-- Without a NUL character all depends on the root. -/
theorem normalize_of_not_nul (h : '\x00' ∉ t) :
    normalize style separator keepEnd t =
      (Root.ofText style t).map fun root => Segments.normalForm separator keepEnd root t := by
  rw [normalize, rejectNul_of_not_mem h]
  show (Root.ofText style t >>= fun root => pure (Normal.ofRoot separator keepEnd root t)) = _
  simp only [← Normal.ofRoot_eq_normalForm]
  cases Root.ofText style t with
  | error e => rfl
  | ok root => rfl

theorem normalize_of_malformed (h : '\x00' ∉ t) (hroot : Root.classify style t = none) :
    normalize style separator keepEnd t = .error ⟨.unparseableRoot, t⟩ := by
  have hofText : Root.ofText style t = .error ⟨.unparseableRoot, t⟩ := by
    simp [Root.ofText, hroot]
  rw [normalize_of_not_nul h, hofText]
  rfl

theorem normalize_of_rooted {root : Root} (h : '\x00' ∉ t) (hroot : Rooted style t root) :
    normalize style separator keepEnd t =
      .ok (Segments.normalForm separator keepEnd root t) := by
  have hofText : Root.ofText style t = .ok root :=
    Root.ofText_eq_ok_iff.mpr (classify_of_rooted hroot)
  rw [normalize_of_not_nul h, hofText]
  rfl

theorem normalize_of_stack {root : Root} {stack : List Text} (h : '\x00' ∉ t)
    (hroot : Rooted style t root)
    (hstack : Segments.resolve? [] (Segments.ofText root t) = some stack) :
    normalize style separator keepEnd t = .ok (some (Normal.rootText separator root t ++
      Segments.write separator (keepEnd && Segments.endInStep (Segments.ofText root t))
        stack)) := by
  rw [normalize_of_rooted h hroot, Segments.normalForm, hstack]
  rfl

/-- A text has a normal form exactly when it has a root, its segments can be read onto a stack,
and the normal form is the stack written behind the root. -/
theorem normalize_eq_ok_some_iff {y : Text} :
    normalize style separator keepEnd t = .ok (some y) ↔
      '\x00' ∉ t ∧ ∃ root stack, Rooted style t root ∧
        Segments.resolve? [] (Segments.ofText root t) = some stack ∧
        y = Normal.rootText separator root t ++
          Segments.write separator (keepEnd && Segments.endInStep (Segments.ofText root t))
            stack := by
  constructor
  · intro h
    -- Errors are no normal forms, so there is no NUL character, and there is a root.
    by_cases hnul : '\x00' ∈ t
    · rw [normalize_of_nul hnul] at h
      exact absurd h (by simp)
    cases hroot : Root.classify style t with
    | none =>
      rw [normalize_of_malformed hnul hroot] at h
      exact absurd h (by simp)
    | some root =>
      have hrooted := rooted_of_classify hroot
      rw [normalize_of_rooted hnul hrooted, Except.ok.injEq, Segments.normalForm,
        Option.map_eq_some_iff] at h
      obtain ⟨stack, hstack, hy⟩ := h
      exact ⟨hnul, root, stack, hrooted, hstack, hy.symm⟩
  · rintro ⟨hnul, root, stack, hrooted, hstack, rfl⟩
    exact normalize_of_stack hnul hrooted hstack

end Answers

end Pathname
