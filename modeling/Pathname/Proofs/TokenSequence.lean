import Mathlib.Data.List.Chain
import Mathlib.Data.List.Destutter
import Pathname.Proofs.TokenScan

/-!
# The tokens of a pattern

A pattern can be cut into pieces in many ways, but only one of them tells the literals from the
characters that stand for something else and wastes no piece: every `?` and every `*` is a piece of its
own, no two literals and no two `*` stand next to each other. This is how the tokens of a pattern cut
it, once a single `*` stands in the place of every run of them.

## Architecture

- The pieces are glued together (`flatten_tokenTexts`) and told apart (`canonical_tokenTexts`) along the
  recursion that reads a pattern, with one lemma for each function that puts a character in front.
- What is canonical is read back piece by piece (`map_text_read_flatten`). Hence there is only one way.
- `tokenTexts_unique`: **the main statement**.
-/

namespace Pathname.Glob

variable {pattern : Text}

/-! ## Cut patterns -/

/-- The texts of the tokens of a pattern. -/
def tokenTexts (pattern : Text) : List Text := (tokens pattern).map Token.text

/-- A pattern with a single `*` in the place of every run of them. -/
def singleRuns (pattern : Text) : Text := pattern.destutter fun a b => ¬ (a = '*' ∧ b = '*')

/-- At least one character, and all of them stand for themselves. -/
def IsLiteral (t : Text) : Prop := t ≠ [] ∧ '?' ∉ t ∧ '*' ∉ t

/-- Pieces that may stand next to each other. -/
def Apart (a b : Text) : Prop := ¬ (a = ['*'] ∧ b = ['*']) ∧ ¬ (IsLiteral a ∧ IsLiteral b)

/-- Pieces of a pattern that tell its literals from the characters that stand for something else, and
are as few as this allows. -/
structure Canonical (pieces : List Text) : Prop where
  /-- Each piece is a `?`, a `*` or a literal. -/
  of_mem : ∀ piece ∈ pieces, piece = ['?'] ∨ piece = ['*'] ∨ IsLiteral piece
  /-- No two `*` and no two literals stand next to each other. -/
  apart : pieces.IsChain Apart

theorem not_isLiteral_one : ¬ IsLiteral ['?'] := by
  simp [IsLiteral]

theorem not_isLiteral_many : ¬ IsLiteral ['*'] := by
  simp [IsLiteral]

theorem Canonical.tail {piece : Text} {rest : List Text} (h : Canonical (piece :: rest)) :
    Canonical rest where
  of_mem other hother := h.of_mem other (List.mem_cons_of_mem piece hother)
  apart := (List.isChain_cons.mp h.apart).2

/-! ## The literals among the tokens -/

/-- A literal is never put together with a `?` or a `*`. -/
theorem isLiteral_of_mem_read {t : Text} (h : .literal t ∈ read pattern) : IsLiteral t := by
  refine of_literal_mem_read (fun c t hone hmany ht => ?_) h
  rcases ht with rfl | ht
  · simp [IsLiteral, hone.symm, hmany.symm]
  · simp [IsLiteral, hone.symm, hmany.symm, ht.2.1, ht.2.2]

/-- The text of a token tells its kind. -/
theorem eq_many_of_text {token : Token} (hmem : token ∈ read pattern) (h : token.text = ['*']) :
    token = .many := by
  cases token with
  | one => simp [Token.text] at h
  | many => rfl
  | literal t =>
    obtain rfl : t = ['*'] := h
    exact absurd (isLiteral_of_mem_read hmem) not_isLiteral_many

theorem exists_literal_of_text {token : Token} (h : IsLiteral token.text) :
    ∃ t, token = .literal t := by
  cases token with
  | one => exact absurd h not_isLiteral_one
  | many => exact absurd h not_isLiteral_many
  | literal t => exact ⟨t, rfl⟩

/-! ## Glued together -/

theorem flatMap_text_addLiteral (c : Char) (ts : List Token) :
    (addLiteral c ts).flatMap Token.text = c :: ts.flatMap Token.text := by
  unfold addLiteral
  split <;> simp [Token.text]

theorem addMany_of_head? {ts : List Token} (h : ts.head? ≠ some .many) :
    addMany ts = .many :: ts := by
  unfold addMany
  split
  · simp at h
  · rfl

/-- A character is glued in front, unless it is one more `*` of a run. -/
theorem flatMap_text_read_cons {c : Char} (h : ¬ (c = '*' ∧ pattern.head? = some '*')) :
    (read (c :: pattern)).flatMap Token.text = c :: (read pattern).flatMap Token.text := by
  rw [read]
  split
  · rename_i hone
    simp [hone, Token.text]
  · split
    · rename_i hmany
      have hhead : (read pattern).head? ≠ some .many :=
        fun hhead => h ⟨hmany, head?_of_head?_read hhead⟩
      simp [addMany_of_head? hhead, hmany, Token.text]
    · apply flatMap_text_addLiteral

theorem flatMap_text_read (pattern : Text) :
    (read pattern).flatMap Token.text = singleRuns pattern := by
  cases pattern with
  | nil => rfl
  | cons c rest =>
    rw [singleRuns, List.destutter_cons']
    induction rest generalizing c with
    | nil =>
      rw [flatMap_text_read_cons (by simp)]
      rfl
    | cons d more ih =>
      by_cases hrun : c = '*' ∧ d = '*'
      · -- The second `*` of a run is dropped on both sides.
        obtain ⟨rfl, rfl⟩ := hrun
        have hread : read ('*' :: '*' :: more) = read ('*' :: more) := by
          simp [read, addMany_eq, dropMany]
        rw [List.destutter'_cons_neg _ (by simp), hread, ih]
      · rw [List.destutter'_cons_pos _ hrun, flatMap_text_read_cons (by simpa using hrun), ih]

/-- **The tokens make up the pattern**, with a single `*` in the place of every run. -/
theorem flatten_tokenTexts (pattern : Text) :
    (tokenTexts pattern).flatten = singleRuns pattern := by
  rw [tokenTexts, ← List.flatMap_def, tokens]
  split
  · rename_i hempty
    simp [List.isEmpty_iff.mp hempty, singleRuns, Token.text]
  · exact flatMap_text_read pattern

/-! ## Told apart -/

/-- Tokens that may stand next to each other. -/
def Token.Apart (a b : Token) : Prop :=
  ¬ (a = .many ∧ b = .many) ∧ ∀ s t, ¬ (a = .literal s ∧ b = .literal t)

theorem isChain_addMany {ts : List Token} (h : ts.IsChain Token.Apart) :
    (addMany ts).IsChain Token.Apart := by
  by_cases hhead : ts.head? = some .many
  · obtain ⟨rest, rfl⟩ := List.head?_eq_some_iff.mp hhead
    exact h
  · rw [addMany_of_head? hhead, List.isChain_cons]
    refine ⟨fun b hb => ⟨?_, by simp⟩, h⟩
    rintro ⟨-, rfl⟩
    exact hhead hb

theorem isChain_addLiteral {ts : List Token} (h : ts.IsChain Token.Apart) (c : Char) :
    (addLiteral c ts).IsChain Token.Apart := by
  unfold addLiteral
  split
  · -- The literal that is there grows, and its neighbour stays what it was.
    obtain ⟨hnext, hrest⟩ := List.isChain_cons.mp h
    refine List.isChain_cons.mpr ⟨fun b hb => ⟨by simp, ?_⟩, hrest⟩
    rintro _ t ⟨-, rfl⟩
    exact (hnext _ hb).2 _ t ⟨rfl, rfl⟩
  · rename_i hno
    refine List.isChain_cons.mpr ⟨fun b hb => ⟨by simp, ?_⟩, h⟩
    rintro _ t ⟨-, rfl⟩
    obtain ⟨rest, hrest⟩ := List.head?_eq_some_iff.mp hb
    exact hno t rest hrest

theorem isChain_read (pattern : Text) : (read pattern).IsChain Token.Apart := by
  induction pattern with
  | nil => exact .nil
  | cons c rest ih =>
    rw [read]
    split
    · exact List.isChain_cons.mpr ⟨fun b _ => ⟨by simp, by simp⟩, ih⟩
    · split
      · exact isChain_addMany ih
      · exact isChain_addLiteral ih c

theorem canonical_read (pattern : Text) : Canonical ((read pattern).map Token.text) where
  of_mem piece hpiece := by
    obtain ⟨token, htoken, rfl⟩ := List.mem_map.mp hpiece
    cases token with
    | one => exact .inl rfl
    | many => exact .inr (.inl rfl)
    | literal t => exact .inr (.inr (isLiteral_of_mem_read htoken))
  apart := by
    rw [List.isChain_map]
    refine (isChain_read pattern).imp_of_mem_imp fun a b ha hb hapart => ⟨?_, ?_⟩
    · rintro ⟨hmany, hmany'⟩
      exact hapart.1 ⟨eq_many_of_text ha hmany, eq_many_of_text hb hmany'⟩
    · rintro ⟨hliteral, hliteral'⟩
      obtain ⟨s, hs⟩ := exists_literal_of_text hliteral
      obtain ⟨t, ht⟩ := exists_literal_of_text hliteral'
      exact hapart.2 s t ⟨hs, ht⟩

theorem tokenTexts_of_ne_nil (hne : pattern ≠ []) :
    tokenTexts pattern = (read pattern).map Token.text := by
  simp [tokenTexts, tokens, hne]

/-! ## Read back -/

/-- **Pieces that are canonical are read back.** The head of what is read of the later pieces is the
token of the next piece, and so it neither joins a literal nor swallows a `*`. -/
theorem map_text_read_flatten {pieces : List Text} (h : Canonical pieces) :
    (read pieces.flatten).map Token.text = pieces := by
  induction pieces with
  | nil => rfl
  | cons piece rest ih =>
    have hrest : (read rest.flatten).map Token.text = rest := ih h.tail
    have hapart : ∀ token, (read rest.flatten).head? = some token → Apart piece token.text := by
      intro token htoken
      apply (List.isChain_cons.mp h.apart).1
      rw [← hrest, List.head?_map, htoken]
      rfl
    rw [List.flatten_cons]
    rcases h.of_mem piece List.mem_cons_self with rfl | rfl | hliteral
    · simp [read, Token.text, hrest]
    · -- The next piece is no `*`, which this one would be merged with.
      have hhead : (read rest.flatten).head? ≠ some .many :=
        fun hmany => (hapart .many hmany).1 ⟨rfl, rfl⟩
      simp [read, addMany_of_head? hhead, Token.text, hrest]
    · have hplain : ∀ c ∈ piece, c ≠ '?' ∧ c ≠ '*' := fun c hc =>
        ⟨fun hone => hliteral.2.1 (hone ▸ hc), fun hmany => hliteral.2.2 (hmany ▸ hc)⟩
      have hhead : ∀ t, (read rest.flatten).head? ≠ some (.literal t) := by
        intro t ht
        have hnext : IsLiteral t := isLiteral_of_mem_read (List.mem_of_head? ht)
        exact (hapart (.literal t) ht).2 ⟨hliteral, hnext⟩
      rw [read_plain_append hplain, foldr_addLiteral hliteral.1 hhead, List.map_cons, hrest]
      rfl

theorem singleRuns_ne_nil (hne : pattern ≠ []) : singleRuns pattern ≠ [] := by
  simpa [singleRuns] using hne

theorem eq_tokenTexts_of_canonical {pieces : List Text} (hpieces : Canonical pieces)
    (hne : pieces.flatten ≠ []) : tokenTexts pieces.flatten = pieces := by
  rw [tokenTexts_of_ne_nil hne]
  exact map_text_read_flatten hpieces

theorem canonical_tokenTexts (hne : pattern ≠ []) : Canonical (tokenTexts pattern) :=
  tokenTexts_of_ne_nil hne ▸ canonical_read pattern

/-- Tokens that are joined are split into the same tokens. -/
theorem tokenTexts_flatten (pattern : Text) :
    tokenTexts (tokenTexts pattern).flatten = tokenTexts pattern := by
  by_cases hne : pattern = []
  · subst hne
    rfl
  · apply eq_tokenTexts_of_canonical (canonical_tokenTexts hne)
    rw [flatten_tokenTexts]
    exact singleRuns_ne_nil hne

/-- **There is one way to cut a pattern into its tokens.** Joined together they are the pattern with a
single `*` in the place of every run. Of a pattern that is not empty they are canonical, and no other
canonical pieces make up the same text. So the joined tokens are split into the same tokens again. The
tokens are those that one pass from left to right gives. -/
theorem tokenTexts_unique (pattern : Text) :
    (tokenTexts pattern).flatten = singleRuns pattern ∧
    (pattern ≠ [] → ∀ pieces : List Text,
      Canonical pieces ∧ pieces.flatten = singleRuns pattern ↔ pieces = tokenTexts pattern) ∧
    tokenTexts (tokenTexts pattern).flatten = tokenTexts pattern ∧
    scan pattern = tokens pattern := by
  refine ⟨flatten_tokenTexts pattern, fun hne pieces => ⟨?_, ?_⟩, tokenTexts_flatten pattern,
    scan_eq_tokens pattern⟩
  · rintro ⟨hpieces, hflatten⟩
    have hjoined : pieces.flatten = (tokenTexts pattern).flatten :=
      hflatten.trans (flatten_tokenTexts pattern).symm
    have hback := eq_tokenTexts_of_canonical hpieces (hflatten ▸ singleRuns_ne_nil hne)
    rw [← hback, hjoined, tokenTexts_flatten]
  · rintro rfl
    exact ⟨canonical_tokenTexts hne, flatten_tokenTexts pattern⟩

/-- A run between literals, and one behind a `?`. -/
theorem tokenTexts_unique_of_runs :
    "ab**c?**".toList ≠ [] ∧
      Canonical ["ab".toList, ['*'], ['c'], ['?'], ['*']] ∧
      singleRuns "ab**c?**".toList = "ab*c?*".toList := by
  have hne : "ab**c?**".toList ≠ [] := by decide
  have hcut := ((tokenTexts_unique "ab**c?**".toList).2.1 hne _).mpr rfl
  exact ⟨hne, hcut.1, by decide⟩

end Pathname.Glob
