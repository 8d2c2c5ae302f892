import Pathname.Compare
import Pathname.Proofs.Canonical
import Pathname.Proofs.CaseMatching
import Pathname.Proofs.ReadBack

/-!
# Containment, component by component

Containment is a question about the characters of two paths. Of paths in normal form it asks for
more than it says: one has the root of the other, and all its components and some more.

- `contains_of_append`: longer texts that begin like what is inside a directory lie in it.
- `components`: the components of a path behind its root.
- `Canonical.contains_write`: more components behind those of a directory lie in it.
- `contains_iff_components`: **the main statement**.
-/

namespace Pathname

open Segments (Stays)

/-! ## Containment of longer texts -/

theorem inside_eq {directory : Text} {separator : Separator}
    (h : directory.head? = some '/' ↔ separator = .slash) :
    inside directory =
      if directory.getLast? = some separator.char then directory
      else directory ++ [separator.char] := by
  have hchoice :
      (if directory.head? = some '/' then Separator.slash else .backslash) = separator := by
    split
    · rename_i hslash
      exact (h.mp hslash).symm
    · rename_i hslash
      cases separator with
      | slash => exact absurd (h.mpr rfl) hslash
      | backslash => rfl
  simp only [inside, hchoice]

/-- What is inside a directory begins no later than behind one separator. -/
theorem inside_append_separator {directory : Text} {separator : Separator}
    (h : directory.head? = some '/' ↔ separator = .slash) (more : Text) :
    inside directory <+: directory ++ separator.char :: more := by
  rw [inside_eq h]
  split
  · exact List.prefix_append _ _
  · exact ⟨more, by rw [List.append_assoc]; rfl⟩

/-- A directory contains every longer text that begins like what is inside it. -/
theorem contains_of_append (rule : CaseRule) {directory more : Text} (hdirectory : directory ≠ [])
    (hmore : more ≠ []) (hinside : inside directory <+: directory ++ more) :
    contains rule (some directory) (some (directory ++ more)) = true := by
  obtain ⟨rest, hrest⟩ := hinside
  have hequals := CaseRule.equals_append rule directory hmore
  have hbegins : rule.beginsWith (directory ++ more) (inside directory) = true :=
    hrest ▸ CaseRule.beginsWith_append (rule.beginsWith_self _) rest
  cases directory with
  | nil => exact absurd rfl hdirectory
  | cons c rest' =>
    rw [List.cons_append] at hequals hbegins ⊢
    rw [contains, hequals, hbegins]
    rfl

/-- What is inside a directory begins like the directory. -/
theorem prefix_inside (directory : Text) : directory <+: inside directory := by
  have hcompleted : ∀ separator : Separator, directory <+:
      if directory.getLast? = some separator.char then directory
      else directory ++ [separator.char] := by
    intro separator
    split
    · exact List.prefix_refl directory
    · exact List.prefix_append ..
  exact hcompleted _

/-- Where case matters, containment is a statement about beginnings. -/
theorem contains_exact_iff {directory t : Text} (hne : directory ≠ []) :
    contains .exact (some directory) (some t) = true ↔ directory ≠ t ∧ inside directory <+: t := by
  cases directory with
  | nil => exact absurd rfl hne
  | cons c rest =>
    cases t with
    | nil =>
      -- Nothing lies in nothing, and what is inside a directory is not nothing.
      have hinside : ¬ inside (c :: rest) <+: [] := fun h =>
        absurd (List.prefix_nil.mp ((prefix_inside _).trans h)) hne
      simp [contains, hinside]
    | cons d more =>
      rw [contains, Bool.and_eq_true, Bool.not_eq_true', Bool.eq_false_iff,
        Ne, CaseRule.exact_equals_iff, CaseRule.exact_beginsWith_iff]

/-! ## Components -/

/-- The components of a text behind its root: what stands between two separators, if anything
does. -/
def components (root : Root) (t : Text) : List Text := (Segments.ofText root t).filter (· ≠ [])

namespace Canonical

variable {style : Style} {separator : Separator} {base p c : Text} {root rp rc : Root}
  {stack lower upper : List Text}

theorem components_eq (h : Canonical style separator c root stack) :
    components root c = stack.reverse := by
  rw [components, Segments.ofText, h.drop_eq_write]
  by_cases hne : stack = []
  · subst hne
    rw [Segments.write_nil]
    rfl
  · rw [Segments.pieces_write hne h.stays, if_neg Bool.false_ne_true, List.append_nil]
    -- No segment of the stack is empty, so none is left out.
    apply List.filter_eq_self.mpr
    intro s hs
    simpa using (h.stays s (List.mem_reverse.mp hs)).ne_nil

theorem eq_take_append_components (h : Canonical style separator c root stack) :
    c = c.take root.length ++ [separator.char].intercalate (components root c) := by
  have hwrite : Segments.write separator false stack =
      [separator.char].intercalate stack.reverse := by
    simp [Segments.write]
  rw [h.components_eq, ← hwrite, ← h.rootText_eq_take]
  exact h.text

/-! ## Containment of longer stacks -/

/-- What is written behind a base in normal form and its root lies inside the base. -/
theorem contains_write (h : Canonical style separator base root lower) (rule : CaseRule)
    (hne : base ≠ []) (hchoice : base.head? = some '/' ↔ separator = .slash)
    (hdrive : root.kind = .driveRelative → lower ≠ []) (hupper : ∀ s ∈ upper, Stays s)
    (hupper' : upper ≠ []) (ended : Bool) :
    contains rule (some base) (some (Normal.rootText separator root base ++
      Segments.write separator ended (upper ++ lower))) = true := by
  have hwrite := Segments.write_ne_nil separator ended hupper hupper'
  cases lower with
  | nil =>
    -- All of the base is root, and what is written follows its separator.
    have hbase : Normal.rootText separator root base = base := by simpa using h.text.symm
    have hlast := h.getLast?_of_stack_eq_nil hne (fun hkind => hdrive hkind rfl)
    rw [hbase, List.append_nil]
    apply contains_of_append rule hne hwrite
    rw [inside_eq hchoice, if_pos hlast]
    exact List.prefix_append _ _
  | cons top below =>
    have hsplit : Normal.rootText separator root base ++
        Segments.write separator ended (upper ++ (top :: below)) =
          base ++ separator.char :: Segments.write separator ended upper := by
      rw [Segments.write_append hupper' (List.cons_ne_nil top below), ← List.append_assoc, ← h.text]
    rw [hsplit]
    exact contains_of_append rule hne (List.cons_ne_nil _ _) (inside_append_separator hchoice _)

/-! ## Containment of components -/

/-- What lies in a path has its root, if it has one of the same kind. -/
theorem root_eq_of_beginning (hp : Canonical style separator p rp lower)
    (hc : Canonical style separator c rc upper) (hkind : rc.kind = rp.kind) (h : p <+: c) :
    rc = rp ∧ c.take rp.length = p.take rp.length := by
  obtain ⟨v, rfl⟩ := h
  refine ⟨?_, List.take_append_of_le_length hp.length_le⟩
  have hrooted := hc.rooted
  rw [hp.text, List.append_assoc] at hrooted
  exact hp.rooted.eq_of_rootText_append hrooted hkind

theorem components_prefix_of_inside (hp : Canonical style separator p root lower)
    (hchoice : p.head? = some '/' ↔ separator = .slash) (h : inside p <+: c) :
    components root p <+: components root c := by
  rw [inside_eq hchoice] at h
  split at h
  · -- A path that ends in a separator is all root.
    rename_i hlast
    rw [hp.components_eq, hp.stack_eq_nil hlast (isSeparator_char separator)]
    exact List.nil_prefix
  · -- The separator behind the path cuts between its own pieces and the others.
    obtain ⟨v, rfl⟩ := h
    have hsegments : Segments.ofText root (p ++ [separator.char] ++ v) =
        Segments.ofText root p ++ Text.pieces isSeparator v := by
      rw [List.append_assoc, Segments.ofText, List.drop_append_of_le_length hp.length_le]
      exact Text.pieces_append_cut (isSeparator_char separator) _ _
    rw [components, components, hsegments, List.filter_append]
    exact List.prefix_append ..

/-- A path with the root text of a directory, its components and more lies in it. -/
theorem contains_of_more_components (hp : Canonical style separator p rp lower)
    (hc : Canonical style separator c rc upper) (rule : CaseRule) (hne : p ≠ [])
    (hchoice : p.head? = some '/' ↔ separator = .slash)
    (hdrive : rp.kind = .driveRelative → lower ≠ []) (htake : p.take rp.length = c.take rc.length)
    (hfirst : components rp p <+: components rc c) (hmore : components rp p ≠ components rc c) :
    contains rule (some p) (some c) = true := by
  rw [hp.components_eq, hc.components_eq] at hfirst hmore
  -- The further components are the upper part of the stack.
  obtain ⟨more, hreverse⟩ := hfirst
  have hupper : upper = more.reverse ++ lower := by
    simpa using (congrArg List.reverse hreverse).symm
  have hmore' : more.reverse ≠ [] := by
    intro hnil
    rw [List.reverse_eq_nil_iff.mp hnil, List.append_nil] at hreverse
    exact hmore hreverse
  have hstays : ∀ s ∈ more.reverse, Stays s :=
    fun s hs => hc.stays s (hupper ▸ List.mem_append_left lower hs)
  have htext := hc.text
  rw [hc.rootText_eq_take, ← htake, ← hp.rootText_eq_take, hupper] at htext
  rw [htext]
  exact hp.contains_write rule hne hchoice hdrive hstays hmore' false

end Canonical

/-- **Containment is strict containment of components.** Both paths are in normal form, without a
separator at their end and in the separator that containment takes from the first character of
the directory; their roots are of one kind, and the directory is not a drive that stands alone.
Each path is the text of its root and its components with separators between them. Where case
matters, the directory contains the path exactly if both have the same text of the root, and the
components of the directory are the first of the path, but not all. -/
theorem contains_iff_components {style : Style} {separator : Separator} {p c : Text}
    {rp rc : Root} (hne : p ≠ []) (hp : normalize style separator false p = .ok (some p))
    (hc : normalize style separator false c = .ok (some c))
    (hrp : Root.classify style p = some rp) (hrc : Root.classify style c = some rc)
    (hkind : rc.kind = rp.kind) (hdrive : ∀ letter : Char, letter.isAlpha = true → p ≠ [letter, ':'])
    (hseparator : separator = .ofIsSlash (p.head? == some '/')) :
    p = p.take rp.length ++ [separator.char].intercalate (components rp p) ∧
    c = c.take rc.length ++ [separator.char].intercalate (components rc c) ∧
    (contains (CasePolicy.sensitive.rule style) (some p) (some c) = true ↔
      p.take rp.length = c.take rc.length ∧ components rp p <+: components rc c ∧
        components rp p ≠ components rc c) := by
  obtain ⟨root, lower, hp⟩ := exists_canonical hp
  obtain rfl : rp = root := hp.rooted.unique (rooted_of_classify hrp)
  obtain ⟨root, upper, hc⟩ := exists_canonical hc
  obtain rfl : rc = root := hc.rooted.unique (rooted_of_classify hrc)
  have hchoice : p.head? = some '/' ↔ separator = .slash := by
    rw [hseparator]
    cases hslash : p.head? == some '/' with
    | true => simpa [Separator.ofIsSlash] using hslash
    | false => simpa [Separator.ofIsSlash] using hslash
  have hlower : rp.kind = .driveRelative → lower ≠ [] := by
    rintro hkind rfl
    -- Such a drive with nothing behind it is a letter and a colon.
    obtain ⟨rfl, letter, rest, rfl, hletter, -⟩ := hp.rooted.eq_cons_of_driveRelative hkind
    obtain rfl : rest = [] := hp.drop_eq_write
    exact hdrive letter hletter rfl
  refine ⟨hp.eq_take_append_components, hc.eq_take_append_components, ?_⟩
  constructor
  · intro h
    obtain ⟨hpc, hinside⟩ := (contains_exact_iff hne).mp h
    obtain ⟨rfl, htake⟩ := hp.root_eq_of_beginning hc hkind ((prefix_inside p).trans hinside)
    refine ⟨htake.symm, hp.components_prefix_of_inside hchoice hinside, fun hsame => hpc ?_⟩
    -- The same components behind the same root are the same path.
    rw [hp.eq_take_append_components, hc.eq_take_append_components, htake, hsame]
  · rintro ⟨htake, hfirst, hmore⟩
    exact hp.contains_of_more_components hc _ hne hchoice hlower htake hfirst hmore

/-- A path two components below a share on a server. -/
theorem contains_on_server :
    normalize .unix .slash false "//srv/a".toList = .ok (some "//srv/a".toList) ∧
    normalize .unix .slash false "//srv/a/b/c".toList = .ok (some "//srv/a/b/c".toList) ∧
    Root.classify .unix "//srv/a".toList = some ⟨.server, 6⟩ ∧
    Root.classify .unix "//srv/a/b/c".toList = some ⟨.server, 6⟩ ∧
    contains (CasePolicy.sensitive.rule .unix) (some "//srv/a".toList)
      (some "//srv/a/b/c".toList) = true := by
  have hp : normalize .unix .slash false "//srv/a".toList = .ok (some "//srv/a".toList) := by rfl
  have hc : normalize .unix .slash false "//srv/a/b/c".toList =
      .ok (some "//srv/a/b/c".toList) := by rfl
  have hrp : Root.classify .unix "//srv/a".toList = some ⟨.server, 6⟩ := by decide
  have hrc : Root.classify .unix "//srv/a/b/c".toList = some ⟨.server, 6⟩ := by decide
  have hdrive : ∀ letter : Char, letter.isAlpha = true → "//srv/a".toList ≠ [letter, ':'] := by
    intro letter _ h
    have hlength : (7 : Nat) = 2 := congrArg List.length h
    exact absurd hlength (by decide)
  have hstatement := contains_iff_components (by decide) hp hc hrp hrc rfl hdrive rfl
  exact ⟨hp, hc, hrp, hrc, hstatement.2.2.mpr (by decide)⟩

end Pathname
