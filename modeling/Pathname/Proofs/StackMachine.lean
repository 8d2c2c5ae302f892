import Pathname.Proofs.CollapsePasses
import Pathname.Proofs.NormalForm

/-!
# The stack machine

The passes of a collapse and the normal form are one function. The buffer of a text is the text of its
root, and behind it the segments, each with a separator behind it; the three passes then do to it what
reading the segments onto a stack does.

- `Collapse.separators_buffer`: the first pass, root by root. A drive that stands alone is the one root
  with a separator behind it that is neither its own nor that of a segment.
- `Collapse.run_of_separators`: the other two passes and the separator at the end.
- `normalizeInPlace_eq`: both ways give the same answers.
- `normalize_eq_stack_machine`: these answers, in full.
-/

namespace Pathname

namespace Collapse

variable {style : Style} {separator : Separator} {keepEnd : Bool} {root : Root}
  {t head body : Text} {segments : List Text}

theorem char_ne {c : Char} (hc : isSeparator c = false) : separator.char ≠ c := by
  rintro rfl
  simp at hc

/-! ## The segments of a buffer -/

/-- A separator behind every segment is one more than there is between them. -/
theorem terminated_eq_intercalate {separator : Char} (h : segments ≠ []) :
    terminated separator segments = [separator].intercalate segments ++ [separator] := by
  induction segments with
  | nil => exact absurd rfl h
  | cons s rest ih =>
    by_cases hrest : rest = []
    · subst hrest
      simp
    · rw [terminated_cons, ih hrest, List.intercalate_cons_of_ne_nil hrest]
      simp

/-- A separator behind every piece is one more than there are in the text. -/
theorem terminated_pieces (separator : Separator) (body : Text) :
    terminated separator.char (Text.pieces isSeparator body) =
      separator.unify body ++ [separator.char] := by
  induction body with
  | nil => rfl
  | cons c rest ih =>
    cases hrest : Text.pieces isSeparator rest with
    | nil => exact absurd hrest (Text.pieces_ne_nil _ rest)
    | cons first more =>
      rw [hrest] at ih
      cases hc : isSeparator c with
      | true => simpa [Text.pieces, hc, hrest] using ih
      | false => simpa [Text.pieces, hc, hrest] using ih

theorem not_mem_of_mem_pieces {s : Text} (h : s ∈ Text.pieces isSeparator body) :
    separator.char ∉ s := fun hmem => char_ne (Text.not_cut_of_mem_pieces h hmem) rfl

/-- The last piece is empty if the text ends in a separator. -/
theorem getLast?_unify_iff (separator : Separator) (hbody : body ≠ []) :
    (separator.unify body).getLast? = some separator.char ↔
      (Text.pieces isSeparator body).getLast? = some [] := by
  have hall := terminated_pieces separator body
  constructor
  · intro hlast
    obtain ⟨init, c, rfl⟩ := (List.eq_nil_or_concat body).resolve_left hbody
    have hc : isSeparator c = true := by
      cases hc : isSeparator c with
      | true => rfl
      | false =>
        have hsame : c = separator.char := by simpa [hc] using hlast
        exact absurd hsame.symm (char_ne hc)
    rw [List.concat_eq_append, Text.pieces_append_cut hc]
    simp [Text.pieces]
  · intro hlast
    obtain ⟨init, hinit⟩ := List.getLast?_eq_some_iff.mp hlast
    have hunify : terminated separator.char init = separator.unify body := by
      simpa [hinit] using hall
    have hne : init ≠ [] := by
      rintro rfl
      exact hbody (by simpa [Separator.unify] using hunify.symm)
    rw [← hunify, terminated_eq_intercalate hne, List.getLast?_concat]

/-- The segments of a buffer: the separator at the end of a text is that of its last segment. -/
def closed (body : Text) : List Text :=
  if (Text.pieces isSeparator body).getLast? = some [] then
    (Text.pieces isSeparator body).dropLast
  else Text.pieces isSeparator body

theorem not_mem_of_mem_closed {s : Text} (h : s ∈ closed body) : separator.char ∉ s := by
  unfold closed at h
  split at h
  · exact not_mem_of_mem_pieces (List.dropLast_subset _ h)
  · exact not_mem_of_mem_pieces h

theorem filter_closed (body : Text) :
    (closed body).filter (· ≠ []) = (Text.pieces isSeparator body).filter (· ≠ []) := by
  unfold closed
  split
  · rename_i hlast
    obtain ⟨init, hinit⟩ := List.getLast?_eq_some_iff.mp hlast
    simp [hinit]
  · rfl

/-- A text that does not begin with a separator has a first segment. -/
theorem exists_closed_eq_cons (separator : Separator) (hbody : body ≠ [])
    (hplain : BeginsPlain body) :
    ∃ c s rest, closed body = (c :: s) :: rest ∧ c ≠ separator.char ∧ separator.char ∉ s ∧
      ∀ other ∈ rest, separator.char ∉ other := by
  obtain ⟨c, s, rest, hclosed⟩ : ∃ c s rest, closed body = (c :: s) :: rest := by
    obtain ⟨c, more, rfl⟩ := List.exists_cons_of_ne_nil hbody
    have hc : isSeparator c = false := beginsPlain_cons.mp hplain
    cases hmore : Text.pieces isSeparator more with
    | nil => exact absurd hmore (Text.pieces_ne_nil _ more)
    | cons first rest =>
      have hpieces : Text.pieces isSeparator (c :: more) = (c :: first) :: rest := by
        simp [Text.pieces, hc, hmore]
      unfold closed
      rw [hpieces]
      cases rest with
      | nil => exact ⟨c, first, [], by simp⟩
      | cons next others =>
        split
        · exact ⟨c, first, _, List.dropLast_cons_cons⟩
        · exact ⟨c, first, _, rfl⟩
  have hall : ∀ s ∈ closed body, separator.char ∉ s := fun s hs => not_mem_of_mem_closed hs
  rw [hclosed] at hall
  obtain ⟨hfirst, hrest⟩ := List.forall_mem_cons.mp hall
  rw [List.mem_cons, not_or] at hfirst
  exact ⟨c, s, rest, hclosed, Ne.symm hfirst.1, hfirst.2, hrest⟩

theorem getLast?_unify_append (separator : Separator) (head : Text) (hbody : body ≠ []) :
    (separator.unify (head ++ body)).getLast? = (separator.unify body).getLast? := by
  have hne : separator.unify body ≠ [] := by simpa [Separator.unify] using hbody
  rw [Separator.unify_append, List.getLast?_append_of_ne_nil _ hne]

/-- **The buffer of a text.** Without a text behind the head, the head must end in a separator. -/
theorem buffer_append (separator : Separator) (head body : Text)
    (hhead : body = [] → (separator.unify head).getLast? = some separator.char) :
    buffer separator (head ++ body) =
      separator.unify head ++ terminated separator.char (closed body) := by
  by_cases hbody : body = []
  · subst hbody
    simp [buffer, closed, Text.pieces, hhead rfl]
  · have hall := terminated_pieces separator body
    unfold buffer closed
    simp only [getLast?_unify_append separator head hbody, getLast?_unify_iff separator hbody]
    split
    · rename_i hend
      obtain ⟨init, hinit⟩ := List.getLast?_eq_some_iff.mp hend
      have hunify : terminated separator.char init = separator.unify body := by
        simpa [hinit] using hall
      rw [hinit, List.dropLast_concat, hunify, Separator.unify_append]
    · rw [hall, Separator.unify_append, List.append_assoc]

/-! ## The first pass -/

theorem length_of_unify_eq {init : Text} {a : Char} (h : separator.unify head = init ++ [a]) :
    head.length = init.length + 1 := by
  rw [← separator.length_unify head, h, List.length_append, List.length_singleton]

/-- Behind a separator the first pass removes the empty segments. -/
theorem separators_buffer_of_separator {init : Text}
    (hhead : separator.unify head = init ++ [separator.char]) (body : Text) :
    separators separator.char (buffer separator (head ++ body)) head.length =
      separator.unify head ++
        terminated separator.char ((Text.pieces isSeparator body).filter (· ≠ [])) := by
  rw [buffer_append separator head body fun _ => by rw [hhead, List.getLast?_concat], hhead,
    length_of_unify_eq hhead, separators_of_separator init fun s hs => not_mem_of_mem_closed hs,
    filter_closed]

/-- So it does behind another character, if the first segment is not empty. -/
theorem separators_buffer_of_plain {init : Text} {a : Char}
    (hhead : separator.unify head = init ++ [a]) (ha : a ≠ separator.char) (hbody : body ≠ [])
    (hplain : BeginsPlain body) :
    separators separator.char (buffer separator (head ++ body)) head.length =
      separator.unify head ++
        terminated separator.char ((Text.pieces isSeparator body).filter (· ≠ [])) := by
  obtain ⟨c, s, rest, hclosed, hc, hs, hrest⟩ := exists_closed_eq_cons separator hbody hplain
  have hfirst : separator.char ∉ c :: s := List.not_mem_cons_of_ne_of_not_mem hc.symm hs
  have hpass := separators_of_plain init ha hfirst hrest
  rw [buffer_append separator head body fun h => absurd h hbody, hhead, length_of_unify_eq hhead,
    ← filter_closed, hclosed]
  simpa using hpass

/-- And so it does at the beginning. -/
theorem separators_buffer_of_beginsPlain (separator : Separator) (hbody : body ≠ [])
    (hplain : BeginsPlain body) :
    separators separator.char (buffer separator body) 1 =
      terminated separator.char ((Text.pieces isSeparator body).filter (· ≠ [])) := by
  obtain ⟨c, s, rest, hclosed, hc, hs, hrest⟩ := exists_closed_eq_cons separator hbody hplain
  have hbuffer : buffer separator body = terminated separator.char (closed body) :=
    buffer_append separator [] body fun h => absurd h hbody
  have hpass := separators_of_plain [] hc hs hrest
  rw [hbuffer, ← filter_closed, hclosed]
  simpa using hpass

/-- A home that stands alone is completed by the separator at the end. -/
theorem separators_buffer_of_home (separator : Separator) (h : Rooted style t root)
    (hlong : t.length < root.length) :
    separators separator.char (buffer separator t) root.length =
      Normal.rootText separator root t ++
        terminated separator.char ((Segments.ofText root t).filter (· ≠ [])) := by
  obtain ⟨user, hplain, rfl⟩ := h.eq_home_of_length_lt hlong
  have hlength : root.length = ('~' :: user).length + 1 := by
    have := h.length_le
    omega
  have hunify : separator.unify ('~' :: user) = '~' :: user := by
    simp [separator.unify_of_isPlain hplain]
  have hlast : ('~' :: user).getLast? ≠ some separator.char := by
    intro hlast
    rcases List.mem_cons.mp (List.mem_of_getLast? hlast) with hmarker | huser
    · exact char_ne isSeparator_tilde hmarker
    · exact char_ne (hplain _ huser) rfl
  have hbuffer : buffer separator ('~' :: user) = '~' :: user ++ [separator.char] := by
    simp only [buffer, hunify, if_neg hlast]
  have hroot : Normal.rootText separator root ('~' :: user) = '~' :: user ++ [separator.char] := by
    rw [Normal.rootText_eq separator h, if_pos hlength, List.take_of_length_le (by omega), hunify]
  have hnone : Segments.ofText root ('~' :: user) = [[]] := by
    rw [Segments.ofText, List.drop_of_length_le (by omega)]
    rfl
  rw [hbuffer, hroot, hnone, separators, if_neg (by simp [hlength])]
  simp

/-- A drive that stands alone. -/
def IsBareDrive (root : Root) (t : Text) : Prop := root.kind = .driveRelative ∧ t.length = 2

/-- **The first pass removes the empty segments**, root by root. -/
theorem separators_buffer (separator : Separator) (hne : t ≠ []) (h : Rooted style t root)
    (hbare : ¬ IsBareDrive root t) :
    separators separator.char (buffer separator t) (if root.length = 0 then 1 else root.length) =
      Normal.rootText separator root t ++
        terminated separator.char ((Segments.ofText root t).filter (· ≠ [])) := by
  by_cases hrelative : root.kind = .relative
  · obtain rfl := h.eq_relative hrelative
    have hplain : BeginsPlain t := (h.of_length_eq_zero rfl).2.1
    rw [Normal.rootText_relative]
    exact separators_buffer_of_beginsPlain separator hne hplain
  have hpositive : root.length ≠ 0 := by
    intro hzero
    obtain ⟨rfl, -⟩ := h.of_length_eq_zero hzero
    exact hrelative rfl
  rw [if_neg hpositive]
  by_cases hlong : t.length < root.length
  · exact separators_buffer_of_home separator h hlong
  have hle : root.length ≤ t.length := Nat.le_of_not_lt hlong
  have hlength : (t.take root.length).length = root.length := List.length_take_of_le hle
  by_cases hdrive : root.kind = .driveRelative
  · obtain ⟨rfl, letter, rest, rfl, hletter, hplain, -⟩ := h.eq_cons_of_driveRelative hdrive
    have hrest : rest ≠ [] := by
      rintro rfl
      exact hbare ⟨rfl, rfl⟩
    have hhead : separator.unify [letter, ':'] = [letter] ++ [':'] := by
      simp [not_isSeparator_of_isAlpha hletter]
    rw [Normal.rootText_of_le hle]
    exact separators_buffer_of_plain hhead (char_ne isSeparator_colon).symm hrest hplain
  · obtain ⟨before, s, htake⟩ := h.take_length_eq hrelative hdrive hle
    have hhead : separator.unify (t.take root.length) =
        separator.unify before ++ [separator.char] := by
      simp [htake]
    have hpass := separators_buffer_of_separator hhead (t.drop root.length)
    rw [List.take_append_drop, hlength] at hpass
    rw [Normal.rootText_of_le hle]
    exact hpass

/-! ## All passes -/

/-- The steps that the first two passes remove do not change what is read. -/
theorem resolve?_filter (stack segments : List Text) :
    Segments.resolve? stack ((segments.filter (· ≠ [])).filter (· ≠ ['.'])) =
      Segments.resolve? stack segments := by
  induction segments generalizing stack with
  | nil => rfl
  | cons s rest ih =>
    by_cases hskip : s = [] ∨ s = ['.']
    · have hpush : Segments.push? stack s = some stack := if_pos hskip
      rw [Segments.resolve?_cons rest hpush, ← ih]
      rcases hskip with rfl | rfl <;> rfl
    · rw [not_or] at hskip
      rw [List.filter_cons_of_pos (by simpa using hskip.1),
        List.filter_cons_of_pos (by simpa using hskip.2), Segments.resolve?, Segments.resolve?]
      cases Segments.push? stack s with
      | none => rfl
      | some next => exact ih next

/-- Each of the three steps at the end of a text is noticed by one of the passes, or before them. -/
theorem endInStep_eq {ended : Bool} (hne : segments ≠ [])
    (hended : ended = true ↔ segments.getLast? = some []) :
    (ended || (segments.filter (· ≠ [])).getLast? == some ['.'] ||
        ((segments.filter (· ≠ [])).filter (· ≠ ['.'])).getLast? == some ['.', '.']) =
      Segments.endInStep segments := by
  obtain ⟨init, s, rfl⟩ := (List.eq_nil_or_concat segments).resolve_left hne
  rw [List.concat_eq_append] at hended ⊢
  have hstep : Segments.endInStep (init ++ [s]) = Normal.isStep s := by
    simp [Segments.endInStep]
  rw [hstep, List.filter_append]
  rw [List.getLast?_concat, Option.some.injEq] at hended
  by_cases hempty : s = []
  · simp [hended.mpr hempty, hempty, Normal.isStep]
  · have hplain : ended = false := Bool.eq_false_iff.mpr (mt hended.mp hempty)
    by_cases hdot : s = ['.']
    · simp [hdot, Normal.isStep]
    · have hempty' : (s == []) = false := beq_eq_false_iff_ne.mpr hempty
      have hdot' : (s == ['.']) = false := beq_eq_false_iff_ne.mpr hdot
      simp [hplain, hempty, hdot, hempty', hdot', Normal.isStep]

/-- The separator that was put at the end is the one behind the last segment of the stack. -/
theorem end_eq {ended step : Bool} {stack : List Text} (head : Text)
    (hended : stack ≠ [] → ended = step) :
    (if (standing separator.char head stack).length ≤ head.length ∨ ended && keepEnd then
        some (standing separator.char head stack)
      else some (standing separator.char head stack).dropLast) =
      some (head ++ Segments.write separator (keepEnd && step) stack) := by
  by_cases hstack : stack = []
  · subst hstack
    simp [standing]
  · obtain rfl := hended hstack
    have hshape : standing separator.char head stack =
        head ++ [separator.char].intercalate stack.reverse ++ [separator.char] := by
      rw [standing, terminated_eq_intercalate (mt List.reverse_eq_nil_iff.mp hstack),
        List.append_assoc]
    have hlong : ¬ (standing separator.char head stack).length ≤ head.length := by
      rw [hshape]
      simp only [List.length_append, List.length_singleton]
      omega
    rw [hshape] at hlong ⊢
    rw [List.dropLast_concat]
    cases ended <;> cases keepEnd <;> simp [Segments.write, hstack]

/-- **The other passes, and the separator at the end.** -/
theorem run_of_separators {start : Nat} (hne : segments ≠ []) (hlength : head.length = start)
    (hpass : separators separator.char (buffer separator t) (if start = 0 then 1 else start) =
      head ++ terminated separator.char (segments.filter (· ≠ [])))
    (hplain : ∀ s ∈ segments, separator.char ∉ s)
    (hended : segments ≠ [[]] →
      ((separator.unify t).getLast? = some separator.char ↔ segments.getLast? = some [])) :
    run separator keepEnd start t = (Segments.resolve? [] segments).map fun stack =>
      head ++ Segments.write separator (keepEnd && Segments.endInStep segments) stack := by
  subst hlength
  have hdot : separator.char ≠ '.' := char_ne rfl
  have hsegments : AreSegments separator.char (segments.filter (· ≠ [])) := fun s hs =>
    ⟨by simpa using List.of_mem_filter hs, hplain s (List.mem_of_mem_filter hs)⟩
  have hothers : AreSegments separator.char ((segments.filter (· ≠ [])).filter (· ≠ ['.'])) :=
    fun s hs => hsegments s (List.mem_of_mem_filter hs)
  have hdots : ['.'] ∉ (segments.filter (· ≠ [])).filter (· ≠ ['.']) := by simp
  have hstart : standing separator.char head [] = head := by simp [standing]
  have hreach : InReach separator.char head [] (head.length + 2) :=
    ⟨by rw [hstart]; omega, by rw [hstart], Nat.le_refl _⟩
  have hboundary : Boundary separator.char head.length head := .inl rfl
  have hsecond := @singleDots_eq _ _ _ _ false hdot hboundary hsegments
  have hnone : AreSegments separator.char [] := fun _ h => absurd h List.not_mem_nil
  have hthird := @doubleDots_eq _ _ _ _ false hdot head hnone hothers hdots hreach
  rw [hstart, resolve?_filter] at hthird
  unfold run
  rw [hpass]
  dsimp only
  rw [hsecond]
  dsimp only
  rw [hthird]
  cases hstack : Segments.resolve? [] segments with
  | none => rfl
  | some stack =>
    refine end_eq head fun hfull => ?_
    have hsome : segments ≠ [[]] := by
      rintro rfl
      exact hfull (Option.some.inj hstack).symm
    have hlast : ((separator.unify t).getLast? == some separator.char) = true ↔
        segments.getLast? = some [] := by
      rw [beq_iff_eq, hended hsome]
    exact endInStep_eq hne hlast

/-- A drive that stands alone is left as it is. -/
theorem run_of_isBareDrive (h : Rooted style t root) (hbare : IsBareDrive root t) :
    run separator keepEnd root.length t = some t := by
  obtain ⟨rfl, letter, rest, rfl, hletter, -, -⟩ := h.eq_cons_of_driveRelative hbare.1
  obtain rfl : rest = [] := by simpa using hbare.2
  have hplain := not_isSeparator_of_isAlpha hletter
  have hunify : separator.unify [letter, ':'] = [letter, ':'] := by simp [hplain]
  have hcolon : ':' ≠ separator.char := (char_ne isSeparator_colon).symm
  have hbuffer : buffer separator [letter, ':'] = [letter, ':', separator.char] := by
    simp [buffer, hunify, hcolon]
  have hfirst : separators separator.char [letter, ':', separator.char] 2 =
      [letter, ':', separator.char] := by
    have hpass := @separators_of_plain _ [] [] [letter] ':' hcolon List.not_mem_nil
      fun _ h => absurd h List.not_mem_nil
    simpa using hpass
  have hsecond : singleDots separator.char 2 [letter, ':', separator.char] 3 false =
      ([letter, ':', separator.char], false) := by
    rw [singleDots, if_neg (by simp)]
  have hthird : doubleDots separator.char 2 [letter, ':', separator.char] 4 false =
      some ([letter, ':', separator.char], false) := by
    rw [doubleDots, if_neg (by simp)]
  have hlast : ([letter, ':'].getLast? == some separator.char) = false := by simp [hcolon]
  unfold run
  rw [hbuffer, if_neg (Nat.succ_ne_zero 1), hfirst]
  dsimp only
  rw [hsecond]
  dsimp only
  rw [hthird, hunify, hlast]
  rfl

/-- **The three passes make the normal form.** -/
theorem run_eq (separator : Separator) (keepEnd : Bool) (hne : t ≠ []) (h : Rooted style t root) :
    run separator keepEnd root.length t = Segments.normalForm separator keepEnd root t := by
  by_cases hbare : IsBareDrive root t
  · rw [run_of_isBareDrive h hbare]
    obtain ⟨rfl, letter, rest, rfl, hletter, -, -⟩ := h.eq_cons_of_driveRelative hbare.1
    obtain rfl : rest = [] := by simpa using hbare.2
    have hroot : Normal.rootText separator ⟨.driveRelative, 2⟩ [letter, ':'] = [letter, ':'] :=
      Normal.rootText_driveRelative hletter []
    have hstack : Segments.resolve? [] (Segments.ofText ⟨.driveRelative, 2⟩ [letter, ':']) =
        some [] := rfl
    rw [Segments.normalForm, hstack, Option.map_some, hroot, Segments.write_nil, List.append_nil]
  · refine run_of_separators (Text.pieces_ne_nil _ _) (Normal.length_rootText separator h)
      (separators_buffer separator hne h hbare) (fun s hs => not_mem_of_mem_pieces hs) ?_
    intro hpieces
    have hbody : t.drop root.length ≠ [] := by
      intro hnil
      rw [Segments.ofText, hnil] at hpieces
      exact hpieces rfl
    have hlast : (separator.unify t).getLast? =
        (separator.unify (t.drop root.length)).getLast? := by
      rw [← getLast?_unify_append separator (t.take root.length) hbody, List.take_append_drop]
    rw [hlast]
    exact getLast?_unify_iff separator hbody

end Collapse

/-- Without a NUL character all depends on the length of the root. -/
theorem normalizeInPlace_of_not_nul {style : Style} {separator : Separator} {keepEnd : Bool} {t : Text}
    (hnul : '\x00' ∉ t) (hne : t ≠ []) : normalizeInPlace style separator keepEnd t =
      (Root.lengthOf style t).map fun start => Collapse.run separator keepEnd start t := by
  rw [normalizeInPlace, rejectNul_of_not_mem hnul]
  show (if t.isEmpty = true then pure (some t) else
    Root.lengthOf style t >>= fun start => pure (Collapse.run separator keepEnd start t)) = _
  rw [if_neg (mt List.isEmpty_iff.mp hne)]
  cases Root.lengthOf style t <;> rfl

/-- **The passes by index and the pass over the characters give the same answers.** -/
theorem normalizeInPlace_eq (style : Style) (separator : Separator) (keepEnd : Bool) (t : Text) :
    normalizeInPlace style separator keepEnd t = normalize style separator keepEnd t := by
  by_cases hnul : '\x00' ∈ t
  · rw [normalize_of_nul hnul, normalizeInPlace, rejectNul_of_mem hnul]
    rfl
  by_cases hne : t = []
  · subst hne
    cases keepEnd <;> rfl
  · rw [normalizeInPlace_of_not_nul hnul hne]
    cases hroot : Root.classify style t with
    | none =>
      rw [normalize_of_malformed hnul hroot]
      simp [Root.lengthOf, Root.ofText, hroot, Except.map]
    | some root =>
      have hrooted := rooted_of_classify hroot
      have hlength : Root.lengthOf style t = .ok root.length := by
        simp [Root.lengthOf, Root.ofText, hroot, Except.map]
      rw [normalize_of_rooted hnul hrooted, hlength, ← Collapse.run_eq separator keepEnd hne hrooted]
      rfl

/-- **`normalize` is a machine with a stack of segments**, and the three passes over a buffer are
another one with the same answers. A NUL character is an error, and so is a malformed root in a text
without one. Any other text is cut behind its root at every separator,
and the pieces are read onto a stack from left to right. There is no normal form exactly if some
`..` meets the empty stack. Otherwise the normal form is the text of the root in the wanted
separator, completed by one separator if the root is longer than the text, then the stack from
bottom to top with one separator between two segments, and one more separator if the end is to be
kept, the stack is not empty, and the last piece is empty, `.` or `..`. -/
theorem normalize_eq_stack_machine (style : Style) (separator : Separator) (keepEnd : Bool)
    (t : Text) :
    normalizeInPlace style separator keepEnd t = normalize style separator keepEnd t ∧
    (normalize style separator keepEnd t = .error ⟨.nulCharacter, t⟩ ↔ '\x00' ∈ t) ∧
    (normalize style separator keepEnd t = .error ⟨.unparseableRoot, t⟩ ↔
      '\x00' ∉ t ∧ Root.classify style t = none) ∧
    ∀ root, '\x00' ∉ t → Root.classify style t = some root →
      (normalize style separator keepEnd t = .ok none ↔
        ∃ before after,
          Text.pieces isSeparator (t.drop root.length) = before ++ ['.', '.'] :: after ∧
          Segments.resolve? [] before = some []) ∧
      ∀ stack, Segments.resolve? [] (Text.pieces isSeparator (t.drop root.length)) = some stack →
        normalize style separator keepEnd t = .ok (some
          (separator.unify (t.take root.length) ++
            (if root.length = t.length + 1 then [separator.char] else []) ++
            [separator.char].intercalate stack.reverse ++
            (if keepEnd = true ∧ stack ≠ [] ∧
                (Text.pieces isSeparator (t.drop root.length)).getLastD [] ∈ [[], ['.'], ['.', '.']]
              then [separator.char] else []))) := by
  refine ⟨normalizeInPlace_eq style separator keepEnd t, ⟨?_, normalize_of_nul⟩,
    ⟨?_, fun h => normalize_of_malformed h.1 h.2⟩, ?_⟩
  · intro h
    by_cases hnul : '\x00' ∈ t
    · exact hnul
    cases hroot : Root.classify style t with
    | none => simp [normalize_of_malformed hnul hroot] at h
    | some root => simp [normalize_of_rooted hnul (rooted_of_classify hroot)] at h
  · intro h
    by_cases hnul : '\x00' ∈ t
    · simp [normalize_of_nul hnul] at h
    cases hroot : Root.classify style t with
    | none => exact ⟨hnul, rfl⟩
    | some root => simp [normalize_of_rooted hnul (rooted_of_classify hroot)] at h
  · intro root hnul hroot
    have hrooted := rooted_of_classify hroot
    constructor
    · -- There is no normal form exactly if there is no stack.
      rw [← Segments.resolve?_eq_none_iff, normalize_of_rooted hnul hrooted, Except.ok.injEq,
        Segments.normalForm, Option.map_eq_none_iff, Segments.ofText]
    · intro stack hstack
      have hpieces : Segments.ofText root t ≠ [] := Text.pieces_ne_nil _ _
      rw [normalize_of_stack hnul hrooted hstack, Normal.rootText_eq separator hrooted,
        Segments.write_eq hpieces, ← List.append_assoc]
      rfl

/-- The machine at work behind the home of a named user. -/
theorem stack_machine_user_home :
    Root.classify .windows "~me/a/./b/..".toList = some ⟨.homeNamedUser, 4⟩ ∧
    normalize .windows .backslash true "~me/a/./b/..".toList = .ok (some "~me\\a\\".toList) ∧
    normalizeInPlace .windows .backslash true "~me/a/./b/..".toList =
      .ok (some "~me\\a\\".toList) := by
  have hnul : '\x00' ∉ "~me/a/./b/..".toList := by decide
  have hroot : Root.classify .windows "~me/a/./b/..".toList = some ⟨.homeNamedUser, 4⟩ := by decide
  have hmachine := normalize_eq_stack_machine .windows .backslash true "~me/a/./b/..".toList
  have hform := (hmachine.2.2.2 _ hnul hroot).2 [['a']] (by decide)
  exact ⟨hroot, hform, hmachine.1.trans hform⟩

end Pathname
