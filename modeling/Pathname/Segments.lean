import Pathname.Normal

/-!
# Normal forms, segment by segment

What a normal form is, said without reference to how it is found: the text behind the root is
split at every separator, the segments are read from left to right onto a stack, and the stack
is written out again.

## Contents

- `Segments.push?`, `Segments.resolve?`: the stack.
- `Segments.normalForm`: the text that the stack stands for.
- `Normal.ofRoot_eq_normalForm`: the one pass over the characters finds exactly that text.
-/

namespace Pathname

namespace Segments

/-! ## The stack -/

/-- Reads one segment onto a stack of segments, whose last segment is on top: the empty segment
and `.` leave it alone, `..` removes the top, and any other segment is put on top. -/
def push? (stack : List Text) (segment : Text) : Option (List Text) :=
  if segment = [] ∨ segment = ['.'] then some stack
  else if segment = ['.', '.'] then
    match stack with
    | [] => none
    | _ :: below => some below
  else some (segment :: stack)

/-- Reads segments onto a stack; there is no answer if some `..` meets an empty stack. -/
def resolve? : List Text → List Text → Option (List Text)
  | stack, [] => some stack
  | stack, segment :: rest =>
    match push? stack segment with
    | some stack => resolve? stack rest
    | none => none

/-- Whether the last of some segments is a mere step. -/
def endInStep (segments : List Text) : Bool := (segments.getLast?.map Normal.isStep).getD false

/-! ## The text -/

/-- The segments of a text behind its root. -/
def ofText (root : Root) (t : Text) : List Text := Text.pieces isSeparator (t.drop root.length)

/-- The text of a stack behind a root: its segments from the bottom to the top, with a separator
between two, and one after the last segment if `ended` says so and there is a segment. -/
def write (separator : Separator) (ended : Bool) (stack : List Text) : Text :=
  [separator.char].intercalate stack.reverse ++
    if ended && !stack.isEmpty then [separator.char] else []

/-- The normal form of a text with the given root. -/
def normalForm (separator : Separator) (keepEnd : Bool) (root : Root) (t : Text) : Option Text :=
  (resolve? [] (ofText root t)).map fun stack =>
    Normal.rootText separator root t ++
      write separator (keepEnd && endInStep (ofText root t)) stack

/-! ## Stacks as kept text -/

/-- A stack as the pass over the characters keeps it: reversed, each segment with a separator
after it. -/
def kept (separator : Separator) (stack : List Text) : Text :=
  stack.flatMap fun segment => separator.char :: segment.reverse

/-- A segment is plain if it holds no separator. -/
def IsPlain (segment : Text) : Prop := ∀ c ∈ segment, isSeparator c = false

/-- Dropping a segment from what is kept removes the top of the stack. -/
theorem drop?_kept_cons {separator : Separator} {segment : Text} {below : List Text}
    (h : IsPlain segment) :
    Normal.drop? separator.char (kept separator (segment :: below)) =
      some (kept separator below) := by
  have hne : ∀ c ∈ segment.reverse, (c != separator.char) = true := fun c hc => by
    have hplain := h c (List.mem_reverse.1 hc)
    rw [bne_iff_ne]
    rintro rfl
    simp at hplain
  have hbelow : (kept separator below).dropWhile (· != separator.char) =
      kept separator below := by
    cases below <;> simp [kept]
  show some ((segment.reverse ++ kept separator below).dropWhile (· != separator.char)) = _
  rw [List.dropWhile_append_of_pos hne, hbelow]

/-- Closing a segment reads it onto the stack. -/
theorem close_kept {separator : Separator} {stack : List Text} {segment : Text}
    (hstack : ∀ s ∈ stack, IsPlain s) :
    Normal.close separator.char segment.reverse (kept separator stack) =
      (push? stack segment).map (kept separator) := by
  have hdot : segment.reverse = ['.'] ↔ segment = ['.'] :=
    ⟨fun h => by simpa using congrArg List.reverse h, fun h => by simp [h]⟩
  have hdots : segment.reverse = ['.', '.'] ↔ segment = ['.', '.'] :=
    ⟨fun h => by simpa using congrArg List.reverse h, fun h => by simp [h]⟩
  unfold Normal.close push?
  simp only [List.reverse_eq_nil_iff, hdot, hdots]
  split
  · rfl
  · split
    · cases stack with
      | nil => rfl
      | cons top below => exact drop?_kept_cons (hstack top List.mem_cons_self)
    · simp [kept]

/-- A stack of plain segments stays one. -/
theorem isPlain_of_push? {stack stack' : List Text} {segment : Text}
    (hstack : ∀ s ∈ stack, IsPlain s) (hsegment : IsPlain segment)
    (h : push? stack segment = some stack') : ∀ s ∈ stack', IsPlain s := by
  unfold push? at h
  split at h
  · obtain rfl := Option.some.inj h
    exact hstack
  · split at h
    · cases stack with
      | nil => simp at h
      | cons top below =>
        obtain rfl := Option.some.inj h
        exact fun s hs => hstack s (List.mem_cons_of_mem _ hs)
    · obtain rfl := Option.some.inj h
      intro s hs
      rcases List.mem_cons.1 hs with rfl | hs
      · exact hsegment
      · exact hstack s hs

/-- The pass over the characters reads the segments onto the stack. -/
theorem scan_kept {separator : Separator} {rest segment : Text} {stack : List Text}
    (hstack : ∀ s ∈ stack, IsPlain s) (hsegment : IsPlain segment) :
    Normal.scan separator.char rest segment.reverse (kept separator stack) =
      (resolve? stack (Text.pieces isSeparator (segment ++ rest))).map fun stack =>
        (kept separator stack, endInStep (Text.pieces isSeparator (segment ++ rest))) := by
  induction rest generalizing segment stack with
  | nil =>
    -- The three steps read the same in both directions.
    have hstep : Normal.isStep segment.reverse = Normal.isStep segment := by
      unfold Normal.isStep
      congr 1
      · congr 1
        · simp
        · rw [Bool.eq_iff_iff, beq_iff_eq, beq_iff_eq]
          exact ⟨fun h => by simpa using congrArg List.reverse h, fun h => by simp [h]⟩
      · rw [Bool.eq_iff_iff, beq_iff_eq, beq_iff_eq]
        exact ⟨fun h => by simpa using congrArg List.reverse h, fun h => by simp [h]⟩
    rw [List.append_nil, Text.pieces_eq_singleton hsegment, Normal.scan, close_kept hstack, hstep]
    cases hpush : push? stack segment <;> simp [resolve?, hpush, endInStep]
  | cons c rest ih =>
    unfold Normal.scan
    -- A separator ends the segment; any other character makes it longer.
    split
    · rename_i hc
      rw [Text.pieces_append_cons hsegment hc, close_kept hstack]
      have hlast : endInStep (segment :: Text.pieces isSeparator rest) =
          endInStep (Text.pieces isSeparator rest) := by
        cases hrest : Text.pieces isSeparator rest with
        | nil => exact absurd hrest (Text.pieces_ne_nil _ _)
        | cons first more => simp [endInStep]
      cases hpush : push? stack segment with
      | none => simp [resolve?, hpush]
      | some next =>
        have hnext := isPlain_of_push? hstack hsegment hpush
        have hempty : IsPlain [] := fun _ h => absurd h List.not_mem_nil
        simpa [resolve?, hpush, hlast] using ih hnext hempty
    · rename_i hc
      have hlonger : IsPlain (segment ++ [c]) := fun d hd => by
        rcases List.mem_append.1 hd with hd | hd
        · exact hsegment d hd
        · rw [List.mem_singleton.1 hd]
          simpa using hc
      simpa using ih hstack hlonger

theorem reverse_kept_cons (separator : Separator) (top : Text) (below : List Text) :
    (kept separator (top :: below)).reverse =
      [separator.char].intercalate (below.reverse ++ [top]) ++ [separator.char] := by
  induction below generalizing top with
  | nil => simp [kept]
  | cons next rest ih =>
    have htop : (kept separator (top :: next :: rest)).reverse =
        (kept separator (next :: rest)).reverse ++ (top ++ [separator.char]) := by
      simp [kept]
    have hglue : [separator.char].intercalate ((next :: rest).reverse ++ [top]) =
        [separator.char].intercalate (next :: rest).reverse ++ ([separator.char] ++ top) :=
      Text.intercalate_concat (by simp)
    rw [htop, ih next, hglue, List.reverse_cons]
    simp

/-- What is kept, in reading order and with its last separator only if `ended` says so, is the
text of the stack. -/
theorem reverse_kept (separator : Separator) (ended : Bool) (stack : List Text) :
    (if ended then kept separator stack else (kept separator stack).tail).reverse =
      write separator ended stack := by
  cases stack with
  | nil => cases ended <;> simp [kept, write]
  | cons top below =>
    have hall := reverse_kept_cons separator top below
    rw [← List.reverse_cons] at hall
    cases ended with
    | true => simpa [write] using hall
    | false =>
      have htail : (kept separator (top :: below)).tail.reverse =
          (kept separator (top :: below)).reverse.dropLast := by
        rw [List.dropLast_reverse]
      simp only [Bool.false_eq_true, ↓reduceIte, write, Bool.false_and, List.append_nil]
      rw [htail, hall, List.dropLast_concat]

end Segments

/-- **The pass over the characters finds the normal form**: the text that the segments behind
the root stand for, read onto a stack. -/
theorem Normal.ofRoot_eq_normalForm (separator : Separator) (keepEnd : Bool) (root : Root)
    (t : Text) :
    Normal.ofRoot separator keepEnd root t = Segments.normalForm separator keepEnd root t := by
  have hscan : Normal.scan separator.char (t.drop root.length) [] [] =
      (Segments.resolve? [] (Segments.ofText root t)).map fun stack =>
        (Segments.kept separator stack, Segments.endInStep (Segments.ofText root t)) :=
    Segments.scan_kept (fun _ h => absurd h List.not_mem_nil)
      (fun _ h => absurd h List.not_mem_nil)
  unfold Normal.ofRoot Segments.normalForm
  rw [hscan, Option.map_map]
  congr 1
  funext stack
  show _ ++ _ = _ ++ _
  rw [← Segments.reverse_kept]

end Pathname
