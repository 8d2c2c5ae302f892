import Pathname.PathPart
import Pathname.Proofs.NormalForm
import Pathname.Proofs.PathSlices

/-!
# Slashes and backslashes are read alike

Everything that is read in a path is read through the question whether a character separates, and
not through the question which separator it is. So a path with slashes in place of its backslashes
has the same root, the same positions and the same normal forms, and its parts are the old ones
with slashes. There is one exception: before a colon a slash is the root of the current drive, and
a backslash is malformed.

- `Root.classify_unify`: both texts have the same root.
- `Separator.unifyAnswer`: an answer with its separators replaced, in its result or in its error;
  `Separator.unifyAnswer_bind` carries the agreement of two answers through a computation.
- `PathPart.extract_unify`: the parts of both texts, from one lemma for each part.
- `separators_interchangeable`: **the main statement**.
-/

namespace Pathname

open Segments (IsPlain)

variable {style : Style} {separator : Separator} {root : Root} {t : Text}

/-! ## Characters and positions -/

namespace Separator

/-- What stands in a unified text in place of a character separates exactly if the character
does. -/
@[simp] theorem isSeparator_unified (separator : Separator) (c : Char) :
    isSeparator (if isSeparator c then separator.char else c) = isSeparator c := by
  cases hc : isSeparator c with
  | true => exact isSeparator_char separator
  | false => exact hc

/-- A character that does not separate is found in a unified text where it was before. -/
theorem unified_beq {d : Char} (hd : isSeparator d = false) (separator : Separator) (c : Char) :
    ((if isSeparator c then separator.char else c) == d) = (c == d) := by
  cases hc : isSeparator c with
  | false => rfl
  | true =>
    have hne : ∀ e : Char, isSeparator e = true → (e == d) = false := by
      intro e he
      rw [beq_eq_false_iff_ne]
      rintro rfl
      rw [he] at hd
      contradiction
    rw [if_pos rfl, hne _ (isSeparator_char separator), hne c hc]

theorem unified_eq_iff {d : Char} (hd : isSeparator d = false) (separator : Separator) (c : Char) :
    (if isSeparator c then separator.char else c) = d ↔ c = d := by
  rw [← beq_iff_eq, unified_beq hd, beq_iff_eq]

theorem unified_of_ne {c : Char} (hc : c ≠ '\\') :
    (if isSeparator c then Separator.slash.char else c) = c := by
  split
  · rename_i hsep
    obtain ⟨s, rfl⟩ := exists_char_of_isSeparator hsep
    cases s with
    | slash => rfl
    | backslash => exact absurd rfl hc
  · rfl

theorem take_unify (separator : Separator) (n : Nat) (t : Text) :
    (separator.unify t).take n = separator.unify (t.take n) :=
  List.map_take.symm

theorem drop_unify (separator : Separator) (n : Nat) (t : Text) :
    (separator.unify t).drop n = separator.unify (t.drop n) :=
  List.map_drop.symm

theorem contains_unify (separator : Separator) {d : Char} (hd : isSeparator d = false) (t : Text) :
    (separator.unify t).contains d = t.contains d := by
  induction t with
  | nil => rfl
  | cons c rest ih =>
    rw [unify_cons, List.contains_cons, List.contains_cons, ih, Bool.beq_comm,
      unified_beq hd, Bool.beq_comm]

theorem findIdx?_unify (separator : Separator) (t : Text) :
    (separator.unify t).findIdx? isSeparator = t.findIdx? isSeparator := by
  rw [unify, List.findIdx?_map]
  congr 1
  funext c
  exact isSeparator_unified separator c

theorem lastIndex?_unify (separator : Separator) {wanted : Char → Bool}
    (hwanted : ∀ c, wanted (if isSeparator c then separator.char else c) = wanted c) (t : Text) :
    Text.lastIndex? wanted (separator.unify t) = Text.lastIndex? wanted t := by
  induction t with
  | nil => rfl
  | cons c rest ih => rw [unify_cons, Text.lastIndex?, Text.lastIndex?, ih, hwanted]

theorem lastSeparator?_unify (separator : Separator) (t : Text) :
    lastSeparator? (separator.unify t) = lastSeparator? t :=
  separator.lastIndex?_unify separator.isSeparator_unified t

theorem lastSegmentStart_unify (separator : Separator) (t : Text) :
    lastSegmentStart (separator.unify t) = lastSegmentStart t := by
  rw [lastSegmentStart, lastSeparator?_unify, lastSegmentStart]

theorem lastDot?_unify (separator : Separator) (t : Text) :
    lastDot? (separator.unify t) = lastDot? t := by
  have hdot : ∀ c, ((if isSeparator c then separator.char else c) == '.') = (c == '.') :=
    unified_beq (by decide) separator
  rw [lastDot?, lastSegmentStart_unify, separator.lastIndex?_unify hdot, lastDot?]

theorem pieces_unify (separator : Separator) (t : Text) :
    Text.pieces isSeparator (separator.unify t) = Text.pieces isSeparator t := by
  induction t with
  | nil => rfl
  | cons c rest ih =>
    rw [unify_cons, Text.pieces, Text.pieces, ih, isSeparator_unified]
    cases hc : isSeparator c <;> rfl

end Separator

/-- Nothing behind the last separator is a separator. -/
theorem isPlain_drop_lastSegmentStart (t : Text) : IsPlain (t.drop (lastSegmentStart t)) := by
  cases hi : lastSeparator? t with
  | none =>
    have hno := lastSeparator?_eq_none_iff.mp hi
    rw [lastSegmentStart, hi, List.drop_zero]
    intro c hc
    rw [Bool.eq_false_iff]
    exact fun hsep => hno ⟨c, hc, hsep⟩
  | some i =>
    obtain ⟨before, c, after, rfl, rfl, -, hafter⟩ := Text.eq_append_of_lastIndex? hi
    rw [lastSegmentStart, hi, List.drop_length_add_append]
    exact hafter

theorem isPlain_of_fileName {name : Text} (h : fileName style t = .ok name) : IsPlain name := by
  cases hroot : Root.classify style t with
  | none =>
    rw [fileName, Root.ofText, hroot] at h
    contradiction
  | some root =>
    rw [fileName_eq_map hroot] at h
    obtain ⟨t', ht', rfl⟩ := exists_of_map_eq_ok h
    exact isPlain_drop_lastSegmentStart t'

/-! ## Roots -/

namespace Root

theorem exceeds_unify (separator : Separator) (root : Root) (t : Text) :
    root.exceeds (separator.unify t) = root.exceeds t := by
  rw [exceeds, separator.length_unify, exceeds]

theorem home_unify (separator : Separator) (rest : Text) :
    home (separator.unify rest) = home rest := by
  rw [home, separator.findIdx?_unify, separator.length_unify, home]
  cases rest <;> rfl

/-- A host holds no separators, so it is the same in both texts. -/
theorem server_unify (separator : Separator) (rest : Text) :
    server (separator.unify rest) = server rest := by
  rw [server, separator.findIdx?_unify, server]
  cases hidx : rest.findIdx? isSeparator with
  | none => rfl
  | some i =>
    obtain ⟨host, s, after, rfl, hplain, rfl⟩ := eq_append_of_findIdx? hidx
    have hhost : (separator.unify (host ++ s.char :: after)).take host.length =
        (host ++ s.char :: after).take host.length := by
      rw [separator.take_unify, List.take_left, separator.unify_of_isPlain hplain]
    cases host with
    | nil => rfl
    | cons c more =>
      rw [List.length_cons] at hhost ⊢
      simp only [hhost]

/-- What follows a letter and a colon is asked only whether it begins with a separator. -/
theorem drive_unify (separator : Separator) (letter : Char) (rest : Text) :
    drive style letter (separator.unify rest) = drive style letter rest := by
  cases rest with
  | nil => rfl
  | cons c more => simp only [drive, Separator.unify_cons, Separator.isSeparator_unified]

/-- **A path has the same root with slashes in place of its backslashes**, unless it begins with a
backslash and a colon. -/
theorem classify_unify (style : Style) (h : ¬ ['\\', ':'] <+: t) :
    classify style (Separator.slash.unify t) = classify style t := by
  cases t with
  | nil => rfl
  | cons c rest =>
    -- Neither marker is a separator, so the first two tests come out alike.
    have hcolon := Separator.unified_eq_iff isSeparator_colon .slash c
    have hhome := Separator.unified_eq_iff isSeparator_tilde .slash c
    simp only [Separator.unify_cons, classify, hcolon, hhome, home_unify]
    by_cases hdrive : rest.head? = some ':'
    · -- Before a colon only a backslash would be told from a slash.
      obtain ⟨more, rfl⟩ := List.head?_eq_some_iff.mp hdrive
      have hc : (if isSeparator c then Separator.slash.char else c) = c := by
        apply Separator.unified_of_ne
        rintro rfl
        exact h ⟨more, rfl⟩
      simp [hc, drive_unify]
    · have hunified : (Separator.slash.unify rest).head? ≠ some ':' := by
        cases rest with
        | nil => simp
        | cons d more =>
          rw [Separator.unify_cons, List.head?_cons, Ne, Option.some.injEq,
            Separator.unified_eq_iff isSeparator_colon]
          simpa using hdrive
      rw [if_neg hdrive, if_neg hunified, Separator.isSeparator_unified]
      cases rest with
      | nil => rfl
      | cons d more => simp only [Separator.unify_cons, Separator.isSeparator_unified, server_unify]

example : Root.classify .unix "\\:".toList = none ∧
    Root.classify .unix "/:".toList = some currentDrive := by decide

end Root

/-! ## Segments -/

theorem Segments.ofText_unify (separator : Separator) (root : Root) (t : Text) :
    ofText root (separator.unify t) = ofText root t := by
  rw [ofText, separator.drop_unify, separator.pieces_unify, ofText]

theorem Normal.rootText_unify (separator other : Separator) (root : Root) (t : Text) :
    rootText separator root (other.unify t) = rootText separator root t := by
  rw [rootText, other.take_unify, separator.unify_unify, root.exceeds_unify, rootText]

/-! ## Answers -/

/-- An answer with one separator in place of both, in its result and in the text of its error. -/
def Separator.unifyAnswer {α β : Type} (separator : Separator) (unifyResult : α → β) :
    Except PathError α → Except PathError β
  | .ok a => .ok (unifyResult a)
  | .error e => .error ⟨e.fault, separator.unify e.path⟩

/-- Answers that agree in every step agree in the end. -/
theorem Separator.unifyAnswer_bind {α β γ δ : Type} {separator : Separator} {f : α → β} {g : γ → δ}
    {first : Except PathError α} {next : α → Except PathError γ} {next' : β → Except PathError δ}
    (h : ∀ a, first = .ok a → next' (f a) = separator.unifyAnswer g (next a)) :
    separator.unifyAnswer f first >>= next' = separator.unifyAnswer g (first >>= next) := by
  cases first with
  | error e => rfl
  | ok a => exact h a rfl

theorem rejectNul_unify (separator : Separator) (t : Text) :
    rejectNul (separator.unify t) = separator.unifyAnswer separator.unify (rejectNul t) := by
  rw [rejectNul, separator.contains_unify (by decide), rejectNul]
  split <;> rfl

theorem rejectNul_unify_bind {γ δ : Type} {separator : Separator} {g : γ → δ}
    {next : Text → Except PathError γ} {next' : Text → Except PathError δ}
    (h : next' (separator.unify t) = separator.unifyAnswer g (next t)) :
    rejectNul (separator.unify t) >>= next' = separator.unifyAnswer g (rejectNul t >>= next) := by
  rw [rejectNul_unify]
  apply Separator.unifyAnswer_bind
  intro u hu
  obtain ⟨-, rfl⟩ := rejectNul_eq_ok_iff.mp hu
  exact h

section Answers

variable (style : Style) (h : ¬ ['\\', ':'] <+: t)

include h

theorem Root.ofText_unify :
    ofText style (Separator.slash.unify t) = Separator.slash.unifyAnswer id (ofText style t) := by
  rw [ofText, classify_unify style h, ofText]
  cases classify style t <;> rfl

theorem Root.ofText_unify_bind {γ δ : Type} {g : γ → δ} {next : Root → Except PathError γ}
    {next' : Root → Except PathError δ}
    (hnext : ∀ root, next' root = Separator.slash.unifyAnswer g (next root)) :
    ofText style (Separator.slash.unify t) >>= next' =
      Separator.slash.unifyAnswer g (ofText style t >>= next) := by
  rw [ofText_unify style h]
  apply Separator.unifyAnswer_bind
  exact fun root _ => hnext root

theorem Root.textOf_unify : textOf style (Separator.slash.unify t) =
    Separator.slash.unifyAnswer Separator.slash.unify (textOf style t) := by
  rw [textOf]
  apply ofText_unify_bind style h
  intro root
  apply rejectNul_unify_bind
  rw [exceeds_unify, Separator.take_unify]
  show Except.ok _ = Except.ok (Separator.slash.unify _)
  cases root.exceeds t with
  | false => rfl
  | true => exact congrArg Except.ok (Separator.slash.unify_append t [Separator.slash.char]).symm

theorem fullPath_unify (withEnd : Bool) : fullPath style withEnd (Separator.slash.unify t) =
    Separator.slash.unifyAnswer Separator.slash.unify (fullPath style withEnd t) := by
  rw [fullPath]
  apply Root.ofText_unify_bind style h
  intro root
  rw [Separator.length_unify, Separator.lastSeparator?_unify]
  split
  · split
    · exact Root.textOf_unify style h
    · exact rejectNul_unify ..
  · cases lastSeparator? t with
    | none => simp only [Separator.take_unify, rejectNul_unify]
    | some i => simp only [Separator.take_unify, rejectNul_unify]

theorem directories_unify (withEnd : Bool) :
    directories style withEnd (Separator.slash.unify t) =
      Separator.slash.unifyAnswer Separator.slash.unify (directories style withEnd t) := by
  rw [directories]
  apply Root.ofText_unify_bind style h
  intro root
  rw [Separator.length_unify, Separator.lastSeparator?_unify]
  cases lastSeparator? t with
  | none => rfl
  | some i =>
    generalize hstop : (if withEnd then i + 1 else i) = stop
    simp only [hstop, Separator.take_unify, Separator.drop_unify, rejectNul_unify]
    split <;> rfl

theorem fileName_unify : fileName style (Separator.slash.unify t) =
    Separator.slash.unifyAnswer Separator.slash.unify (fileName style t) := by
  rw [fileName]
  apply Root.ofText_unify_bind style h
  intro _
  apply rejectNul_unify_bind
  rw [Separator.lastSegmentStart_unify, Separator.drop_unify]
  rfl

theorem extensionDot?_unify : extensionDot? style (Separator.slash.unify t) =
    Separator.slash.unifyAnswer id (extensionDot? style t) := by
  have hstart : streamStart (Separator.slash.unify t) = streamStart t := by
    rw [streamStart, Root.classify_unify .windows h, Separator.lastSegmentStart_unify, streamStart]
  have hmarker : hasStreamMarker style (Separator.slash.unify t) = hasStreamMarker style t := by
    rw [hasStreamMarker, hstart, Separator.drop_unify,
      Separator.contains_unify _ isSeparator_colon, hasStreamMarker]
  rw [extensionDot?, hmarker, Separator.lastDot?_unify, extensionDot?]
  split <;> rfl

theorem withoutExtension_unify : withoutExtension style (Separator.slash.unify t) =
    Separator.slash.unifyAnswer Separator.slash.unify (withoutExtension style t) := by
  rw [withoutExtension]
  apply rejectNul_unify_bind
  rw [extensionDot?_unify style h]
  apply Separator.unifyAnswer_bind
  intro dot _
  cases dot with
  | none => rfl
  | some i => exact congrArg Except.ok (Separator.slash.take_unify i t)

theorem extension_unify : extension style (Separator.slash.unify t) =
    Separator.slash.unifyAnswer Separator.slash.unify (extension style t) := by
  rw [extension]
  apply Root.ofText_unify_bind style h
  intro _
  apply rejectNul_unify_bind
  rw [extensionDot?_unify style h]
  apply Separator.unifyAnswer_bind
  intro dot _
  cases dot with
  | none => rfl
  | some i => exact congrArg Except.ok (Separator.slash.drop_unify (i + 1) t)

/-- The file name is cut once more, and holds no separators any longer. -/
theorem baseName_unify : baseName style (Separator.slash.unify t) =
    Separator.slash.unifyAnswer Separator.slash.unify (baseName style t) := by
  rw [baseName, fileName_unify style h]
  apply Separator.unifyAnswer_bind
  intro name hname
  rw [extensionDot?_unify style h]
  apply Separator.unifyAnswer_bind
  intro _ _
  apply withoutExtension_unify
  rintro ⟨rest, rfl⟩
  have hbackslash := isPlain_of_fileName hname '\\' (List.mem_cons_self ..)
  contradiction

theorem PathPart.extract_unify (part : PathPart) :
    part.extract style (Separator.slash.unify t) =
      Separator.slash.unifyAnswer Separator.slash.unify (part.extract style t) := by
  cases part with
  | root => exact Root.textOf_unify style h
  | fullPath => exact fullPath_unify style h true
  | fullPathNoEnd => exact fullPath_unify style h false
  | path => exact directories_unify style h true
  | pathNoEnd => exact directories_unify style h false
  | name => exact fileName_unify style h
  | baseName => exact baseName_unify style h
  | extension => exact extension_unify style h
  | allButExtension => exact withoutExtension_unify style h

/-- The segments of both texts are the same, and the root is written in the wanted separator. -/
theorem normalize_unify (separator : Separator) (keepEnd : Bool) :
    normalize style separator keepEnd (Separator.slash.unify t) =
      Separator.slash.unifyAnswer id (normalize style separator keepEnd t) := by
  rw [normalize]
  apply rejectNul_unify_bind
  apply Root.ofText_unify_bind style h
  intro root
  rw [Normal.ofRoot_eq_normalForm, Normal.ofRoot_eq_normalForm, Segments.normalForm,
    Segments.normalForm, Segments.ofText_unify, Normal.rootText_unify]
  rfl

end Answers

/-- **Slashes and backslashes are interchangeable in a path**, unless it begins with a backslash and
a colon. With slashes in place of its backslashes it has the same root, the same normal forms, the
same last separator and the same dot before its extension, and each part is the old one with
slashes. Where there is an error, there is one with the same fault, and its text is the old one with
slashes. -/
theorem separators_interchangeable (style : Style) (t : Text) (h : ¬ ['\\', ':'] <+: t) :
    Root.classify style (Separator.slash.unify t) = Root.classify style t ∧
    (∀ separator keepEnd, normalize style separator keepEnd (Separator.slash.unify t) =
      Separator.slash.unifyAnswer id (normalize style separator keepEnd t)) ∧
    lastSeparator? (Separator.slash.unify t) = lastSeparator? t ∧
    extensionDot? style (Separator.slash.unify t) =
      Separator.slash.unifyAnswer id (extensionDot? style t) ∧
    ∀ part : PathPart, part.extract style (Separator.slash.unify t) =
      Separator.slash.unifyAnswer Separator.slash.unify (part.extract style t) :=
  ⟨Root.classify_unify style h, normalize_unify style h, Separator.slash.lastSeparator?_unify t,
    extensionDot?_unify style h, PathPart.extract_unify style h⟩

/-- A drive with both separators, and a stream behind a backslash. -/
theorem interchangeable_on_drive :
    ¬ ['\\', ':'] <+: "C:\\a/b\\c.txt".toList ∧
    PathPart.fullPath.extract .windows "C:/a/b/c.txt".toList = .ok "C:/a/b/".toList ∧
    ¬ ['\\', ':'] <+: "a\\b:c".toList ∧
    PathPart.baseName.extract .windows "a/b:c".toList = .error ⟨.streamMarker, "a/b:c".toList⟩ := by
  have hdrive : ¬ ['\\', ':'] <+: "C:\\a/b\\c.txt".toList := by decide
  have hstream : ¬ ['\\', ':'] <+: "a\\b:c".toList := by decide
  obtain ⟨-, -, -, -, hparts⟩ := separators_interchangeable .windows _ hdrive
  obtain ⟨-, -, -, -, hparts'⟩ := separators_interchangeable .windows _ hstream
  exact ⟨hdrive, hparts .fullPath, hstream, hparts' .baseName⟩

end Pathname
