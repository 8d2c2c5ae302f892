import Pathname.Glob.Matcher

/-!
# The language of a pattern

The texts that a list of tokens describes, said without reference to how a match is found: a text
is cut into consecutive pieces, one for each token.

## Contents

- `Describes`: the relation.
- `Accepts`: the verdict of the matcher on a list of tokens.
- `describes_of_isMatch`: whatever the matcher accepts is described by the pattern. The converse
  holds only where no `?` ends the effect of a `*` before it (`Pathname.Proofs.GlobComplete`).
-/

namespace Pathname.Glob

/-- A text is cut into consecutive pieces, one for each token: one character for `?`, any run of
characters for `*`, and for a literal a piece that equals it under the case rule. -/
inductive Describes (rule : CaseRule) : List Token → Text → Prop where
  /-- No token describes the empty text. -/
  | nil : Describes rule [] []
  /-- A `?` takes one character. -/
  | one {rest : List Token} {text : Text} (c : Char) :
      Describes rule rest text → Describes rule (.one :: rest) (c :: text)
  /-- A `*` takes any run of characters. -/
  | many {rest : List Token} {text : Text} (run : Text) :
      Describes rule rest text → Describes rule (.many :: rest) (run ++ text)
  /-- A literal takes a piece that equals it. -/
  | literal {rest : List Token} {text piece literal : Text} :
      rule.equals piece literal = true → Describes rule rest text →
        Describes rule (.literal literal :: rest) (piece ++ text)

/-! ## What is in front of the tokens -/

/-- The tokens of an attempt, with the `*` in front of them if there is one. -/
def behind (free : Bool) (tokens : List Token) : List Token :=
  if free then .many :: tokens else tokens

/-- A `*` in front may take nothing. -/
theorem Describes.behind {rule : CaseRule} {tokens : List Token} {text : Text} (free : Bool)
    (h : Describes rule tokens text) : Describes rule (behind free tokens) text := by
  cases free with
  | false => exact h
  | true => exact Describes.many [] h

/-- Two `*` in a row may be taken for one. -/
theorem Describes.of_many_many {rule : CaseRule} {rest : List Token} {text : Text}
    (h : Describes rule (.many :: .many :: rest) text) : Describes rule (.many :: rest) text := by
  cases h with
  | many first h =>
    cases h with
    | many second h => exact List.append_assoc .. ▸ Describes.many (first ++ second) h

/-- A `*` takes more if more text is put in front. -/
theorem Describes.many_append {rule : CaseRule} {rest : List Token} {text : Text} (run : Text)
    (h : Describes rule (.many :: rest) text) : Describes rule (.many :: rest) (run ++ text) := by
  cases h with
  | many first h => exact List.append_assoc .. ▸ Describes.many (run ++ first) h

/-- A text that begins with a literal is described if what follows the literal is. -/
theorem Describes.of_beginsWith {rule : CaseRule} {rest : List Token} {text literal : Text}
    (hbegins : rule.beginsWith text literal = true)
    (h : Describes rule rest (text.drop literal.length)) :
    Describes rule (.literal literal :: rest) text := by
  have hequals := CaseRule.equals_take_of_beginsWith hbegins
  simpa using Describes.literal hequals h

/-! ## Soundness -/

/-- A successful attempt cuts the text into pieces. -/
theorem describes_of_attempt {rule : CaseRule} {tokens : List Token} {free : Bool} {text : Text}
    (h : (attempt rule tokens free text).left = some []) :
    Describes rule (behind free tokens) text := by
  fun_induction attempt rule tokens free text with
  | case1 free text =>
    obtain rfl : text = [] := by simpa using h
    exact Describes.nil.behind free
  | case2 => simp at h
  | case3 free rest c text ih => exact (Describes.one c (ih h)).behind free
  | case4 free rest text ih =>
    have hrest := ih h
    have hmany : Describes rule (.many :: rest) text := by
      split at hrest
      · rename_i hempty
        obtain rfl : rest = [] := by simpa using hempty
        simpa using Describes.many_append text hrest
      · exact hrest
    exact hmany.behind free
  | case5 => simp at h
  | case6 literal rest text found hfound further ih =>
    have hliteral := Describes.of_beginsWith (CaseRule.beginsWith_of_seek hfound) (ih h)
    obtain ⟨skipped, rfl⟩ := CaseRule.suffix_of_seek hfound
    exact Describes.many skipped hliteral
  | case7 literal rest text hbegins ih => exact Describes.of_beginsWith hbegins (ih h)
  | case8 => simp at h

/-- If a place that an attempt saved leads to a match, then so does the attempt. -/
theorem describes_of_mem_saved {rule : CaseRule} {tokens : List Token} {free : Bool}
    {text : Text} {point : SavePoint} (hmem : point ∈ (attempt rule tokens free text).saved)
    (h : Describes rule (.many :: point.tokens) point.text) :
    Describes rule (behind free tokens) text := by
  fun_induction attempt rule tokens free text with
  | case1 => simp at hmem
  | case2 => simp at hmem
  | case3 free rest c text ih => exact (Describes.one c (ih hmem)).behind free
  | case4 free rest text ih =>
    have hrest := ih hmem
    have hmany : Describes rule (.many :: rest) text := by
      split at hrest
      · simpa using Describes.many_append text hrest
      · exact hrest
    exact hmany.behind free
  | case5 => simp at hmem
  | case6 literal rest text found hfound further ih =>
    obtain ⟨skipped, rfl⟩ := CaseRule.suffix_of_seek hfound
    rcases List.mem_append.1 hmem with hfurther | hnext
    · have hliteral :=
        Describes.of_beginsWith (CaseRule.beginsWith_of_seek hfound) (ih hfurther)
      exact Describes.many skipped hliteral
    · cases found with
      | nil => simp [nextPlace?] at hnext
      | cons c behind =>
        obtain ⟨again, hseek, rfl⟩ := Option.map_eq_some_iff.1 (Option.mem_toList.1 hnext)
        obtain ⟨between, rfl⟩ := CaseRule.suffix_of_seek hseek
        have hagain := Describes.many_append (skipped ++ c :: between) h
        simpa [Glob.behind] using hagain
  | case7 literal rest text hbegins ih => exact Describes.of_beginsWith hbegins (ih hmem)
  | case8 => simp at hmem

/-- A successful search starts from a place that leads to a match. -/
theorem exists_describes_of_search {rule : CaseRule} {points : List SavePoint}
    (h : search rule points = true) :
    ∃ point ∈ points, Describes rule (.many :: point.tokens) point.text := by
  fun_induction search rule points with
  | case1 => simp at h
  | case2 point stack outcome ih =>
    rw [Bool.or_eq_true] at h
    rcases h with hdone | hlater
    · refine ⟨point, List.mem_cons_self, ?_⟩
      exact describes_of_attempt (Attempt.succeeded_iff.1 hdone)
    · obtain ⟨later, hmem, hlater⟩ := ih hlater
      rcases List.mem_append.1 hmem with hsaved | hstack
      · exact ⟨point, List.mem_cons_self, describes_of_mem_saved hsaved hlater⟩
      · exact ⟨later, List.mem_cons_of_mem _ hstack, hlater⟩

/-- The tokens of a pattern accept a text: an attempt from the first token on succeeds, or one at a
place that is saved on the way. -/
def Accepts (rule : CaseRule) (tokens : List Token) (text : Text) : Prop :=
  (attempt rule tokens false text).succeeded = true ∨
    search rule (attempt rule tokens false text).saved = true

theorem isMatch_iff_accepts {rule : CaseRule} {text pattern : Text} :
    isMatch rule text pattern = true ↔ Accepts rule (tokens pattern) text := by
  rw [isMatch, Bool.or_eq_true]
  rfl

/-- Tokens describe what they accept. -/
theorem describes_of_accepts {rule : CaseRule} {tokens : List Token} {text : Text}
    (h : Accepts rule tokens text) : Describes rule tokens text := by
  show Describes rule (behind false tokens) text
  rcases h with hdone | hlater
  · exact describes_of_attempt (Attempt.succeeded_iff.1 hdone)
  · obtain ⟨point, hmem, hpoint⟩ := exists_describes_of_search hlater
    exact describes_of_mem_saved hmem hpoint

/-- **The matcher is sound**: a text that it accepts is described by the tokens of the pattern. -/
theorem describes_of_isMatch {rule : CaseRule} {text pattern : Text}
    (h : isMatch rule text pattern = true) : Describes rule (tokens pattern) text :=
  describes_of_accepts (isMatch_iff_accepts.1 h)

end Pathname.Glob
