import Pathname.Join
import Pathname.Proofs.NormalForm
import Pathname.Proofs.ReadBack

/-!
# Glued texts

A join is the normal form of two texts that are glued together. Gluing is associative, and a
glued text is read as its parts are: first the segments of the base, then those of the addition.

- `glue_assoc`: gluing is associative.
- `Base`: the bases that keep their root when something is glued to them.
- `Base.normalize_glue`: the normal form of a glued text, from the segments of its parts.
- `join_of_relative`, `join_of_rooted`: what a join is, by the root of the addition.
-/

namespace Pathname

/-! ## Gluing -/

theorem glue_of_getLast? {base addition : Text} {d : Char} (h : base.getLast? = some d) :
    glue base addition =
      if isSeparator d then base ++ addition else base ++ Separator.slash.char :: addition := by
  rw [glue, h]

@[simp] theorem nil_glue (addition : Text) : glue [] addition = addition := rfl

/-- A glued text that is not empty ends as its addition does, if there is one. -/
private theorem getLast?_glue (base : Text) {addition : Text} (h : addition ≠ []) :
    (glue base addition).getLast? = addition.getLast? := by
  have hlast : addition.getLast? = some (addition.getLast h) := List.getLast?_eq_some_getLast h
  cases hbase : base.getLast? with
  | none => rw [List.getLast?_eq_none_iff.mp hbase, nil_glue]
  | some d =>
    rw [glue_of_getLast? hbase]
    split
    · rw [List.getLast?_append, hlast, Option.some_or]
    · rw [List.getLast?_append, List.getLast?_cons, hlast]
      rfl

/-- **Gluing is associative.** -/
theorem glue_assoc (a b c : Text) : glue (glue a b) c = glue a (glue b c) := by
  cases hb : b.getLast? with
  | none =>
    obtain rfl : b = [] := List.getLast?_eq_none_iff.mp hb
    rw [nil_glue]
    -- An empty text in the middle adds the separator that is missing behind the first text.
    cases ha : a.getLast? with
    | none => rw [List.getLast?_eq_none_iff.mp ha, nil_glue]
    | some d =>
      cases hd : isSeparator d with
      | true => simp only [glue_of_getLast? ha, hd, if_true, List.append_nil]
      | false =>
        have hlast : (a ++ [Separator.slash.char]).getLast? = some Separator.slash.char :=
          List.getLast?_concat
        simp only [glue_of_getLast? ha, hd, Bool.false_eq_true, if_false, glue_of_getLast? hlast,
          isSeparator_char, if_true, List.append_assoc, List.singleton_append]
  | some d =>
    have hne : b ≠ [] := by
      rintro rfl
      exact absurd hb (by simp)
    -- What stands between the last two texts hangs on the middle one alone.
    have hglue := getLast?_glue a hne
    rw [glue_of_getLast? (hglue.trans hb), glue_of_getLast? hb]
    cases ha : a.getLast? with
    | none => rw [List.getLast?_eq_none_iff.mp ha, nil_glue, nil_glue]
    | some e =>
      -- Each gap gets its separator or not, in the one grouping as in the other.
      rw [glue_of_getLast? ha, glue_of_getLast? ha]
      split <;> split <;> simp

theorem prefix_glue (base addition : Text) : base <+: glue base addition := by
  cases hbase : base.getLast? with
  | none =>
    rw [List.getLast?_eq_none_iff.mp hbase]
    exact List.nil_prefix
  | some d =>
    rw [glue_of_getLast? hbase]
    split
    · exact List.prefix_append ..
    · exact List.prefix_append ..

/-- Gluing adds nothing but separators. -/
theorem mem_of_mem_glue {base addition : Text} {c : Char} (hc : c ∈ glue base addition)
    (hplain : isSeparator c = false) : c ∈ base ∨ c ∈ addition := by
  cases hbase : base.getLast? with
  | none =>
    rw [List.getLast?_eq_none_iff.mp hbase, nil_glue] at hc
    exact Or.inr hc
  | some d =>
    rw [glue_of_getLast? hbase] at hc
    split at hc
    · exact List.mem_append.mp hc
    · rcases List.mem_append.mp hc with hc | hc
      · exact Or.inl hc
      · rcases List.mem_cons.mp hc with rfl | hc
        · rw [isSeparator_char] at hplain
          exact absurd hplain Bool.noConfusion
        · exact Or.inr hc

/-! ## Bases -/

/-- A base that keeps its root when something is glued to it: the root is all in it, and ends in
a separator if there is nothing behind it. -/
structure Base (style : Style) (base : Text) (root : Root) : Prop where
  rooted : Rooted style base root
  ne_nil : base ≠ []
  notLetterColon : ¬ IsLetterColon style base
  length_le : root.length ≤ base.length
  ended : root.length = base.length → ∃ d, base.getLast? = some d ∧ isSeparator d = true

namespace Base

variable {style : Style} {separator : Separator} {base addition : Text} {root : Root}

/-- What is glued to a base, with the separator before it if there is one. -/
theorem glue_eq_append (h : Base style base root) (hcolon : addition.head? ≠ some ':')
    (hplain : BeginsPlain addition) :
    ∃ v, glue base addition = base ++ v ∧ v.head? ≠ some ':' ∧
      (root.length = base.length → BeginsPlain v) := by
  have hlast : base.getLast? = some (base.getLast h.ne_nil) :=
    List.getLast?_eq_some_getLast h.ne_nil
  rw [glue_of_getLast? hlast]
  split
  · exact ⟨addition, rfl, hcolon, fun _ => hplain⟩
  · rename_i hsep
    refine ⟨Separator.slash.char :: addition, rfl, by simp [Separator.char], fun hall => ?_⟩
    -- A base that is all root ends in a separator, and gets no other one.
    obtain ⟨d, hd, hdsep⟩ := h.ended hall
    rw [hlast, Option.some.injEq] at hd
    exact absurd (hd ▸ hdsep) hsep

theorem rooted_glue (h : Base style base root) (hcolon : addition.head? ≠ some ':')
    (hplain : BeginsPlain addition) : Rooted style (glue base addition) root := by
  obtain ⟨v, hglue, hv, hplain⟩ := h.glue_eq_append hcolon hplain
  rw [hglue]
  exact h.rooted.append h.length_le h.ne_nil h.notLetterColon hv hplain

theorem rootText_glue (h : Base style base root) :
    Normal.rootText separator root (glue base addition) =
      Normal.rootText separator root base := by
  have hle := h.length_le
  obtain ⟨v, hv⟩ := prefix_glue base addition
  rw [← hv, Normal.rootText_of_le hle, Normal.rootText_of_le (by rw [List.length_append]; omega),
    List.take_append_of_le_length hle]

/-- The last pieces of a glued text are those of the addition, and the others are read as those
of the base. -/
theorem ofText_glue (h : Base style base root) (addition : Text) :
    ∃ before, Segments.ofText root (glue base addition) =
        before ++ Text.pieces isSeparator addition ∧
      Segments.resolve? [] before = Segments.resolve? [] (Segments.ofText root base) := by
  have hlast : base.getLast? = some (base.getLast h.ne_nil) :=
    List.getLast?_eq_some_getLast h.ne_nil
  have hdrop : ∀ v, (base ++ v).drop root.length = base.drop root.length ++ v :=
    fun v => List.drop_append_of_le_length h.length_le
  rw [glue_of_getLast? hlast]
  cases hsep : isSeparator (base.getLast h.ne_nil) with
  | false =>
    -- The separator that is put in ends the last piece of the base.
    rw [if_neg Bool.false_ne_true, Segments.ofText, hdrop,
      Text.pieces_append_cut (isSeparator_char .slash)]
    exact ⟨_, rfl, rfl⟩
  | true =>
    rw [if_pos rfl, Segments.ofText, Segments.ofText, hdrop]
    -- The separator at the end of the base belongs to the root, or ends a segment behind it.
    cases hbehind : base.drop root.length with
    | nil => exact ⟨[], rfl, Segments.resolve?_singleton_nil.symm⟩
    | cons c rest =>
      have hend : (c :: rest).getLast? = some (base.getLast h.ne_nil) := by
        rw [← hbehind, List.getLast?_drop, if_neg, hlast]
        rw [← List.drop_eq_nil_iff, hbehind]
        exact List.cons_ne_nil c rest
      obtain ⟨before, hbefore⟩ := List.getLast?_eq_some_iff.mp hend
      refine ⟨Text.pieces isSeparator before, ?_, ?_⟩
      · rw [hbefore, List.append_assoc, List.singleton_append, Text.pieces_append_cut hsep]
      · rw [hbefore, Text.pieces_append_cut hsep, Segments.resolve?_append]
        cases Segments.resolve? [] (Text.pieces isSeparator before) with
        | none => rfl
        | some stack => exact Segments.resolve?_singleton_nil.symm

/-- **A glued text is read as its parts are.** -/
theorem normalize_glue (h : Base style base root) (hcolon : addition.head? ≠ some ':')
    (hplain : BeginsPlain addition) (hnul : '\x00' ∉ glue base addition) :
    normalize style separator true (glue base addition) =
      .ok (((Segments.resolve? [] (Segments.ofText root base)).bind fun lower =>
        Segments.resolve? lower (Text.pieces isSeparator addition)).map fun stack =>
          Normal.rootText separator root base ++
            Segments.write separator (Segments.endInStep (Text.pieces isSeparator addition))
              stack) := by
  obtain ⟨before, hsegments, hbefore⟩ := h.ofText_glue addition
  rw [normalize_of_rooted hnul (h.rooted_glue hcolon hplain), Segments.normalForm,
    h.rootText_glue, hsegments, Segments.resolve?_append, hbefore,
    Segments.endInStep_append (Text.pieces_ne_nil isSeparator addition), Bool.true_and]

end Base

/-! ## Joins -/

theorem join_of_relative {style : Style} {addition : Text}
    (h : Root.classify style addition = some .relative) (base : Text) :
    join style (some base) addition =
      normalize style style.separator true (glue base addition) := by
  have hofText : Root.ofText style addition = .ok .relative := Root.ofText_eq_ok_iff.mpr h
  rw [join, hofText]
  rfl

theorem join_none_of_relative {style : Style} {addition : Text}
    (h : Root.classify style addition = some .relative) :
    join style none addition = .ok none := by
  have hofText : Root.ofText style addition = .ok .relative := Root.ofText_eq_ok_iff.mpr h
  rw [join, hofText]
  rfl

/-- An addition with a root of its own leads away from every base. -/
theorem join_of_rooted {style : Style} {addition : Text} {root : Root}
    (h : Root.classify style addition = some root) (hlength : root.length ≠ 0)
    (base : Option Text) :
    join style base addition = normalize style style.separator true addition := by
  have hofText : Root.ofText style addition = .ok root := Root.ofText_eq_ok_iff.mpr h
  unfold join
  rw [hofText]
  exact if_pos (Nat.pos_of_ne_zero hlength)

end Pathname
