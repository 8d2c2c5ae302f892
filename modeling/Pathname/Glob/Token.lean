import Pathname.Text

/-!
# Tokens of a pattern

In a pattern `?` stands for one character and `*` for any run of characters; everything else
stands for itself. Nothing is escaped, and separators are characters like any other.

## Contents

- `Token`, `Token.text`.
- `tokens`: the tokens of a pattern; runs of `*` count as one.
- `literal_ne_nil_of_mem_read`: only the empty pattern has an empty literal.
- `of_literal_mem_read`, `head?_of_head?_read`: what its literals have in common, and what its first
  token is.
- `read_plain_append`, `foldr_addLiteral`: characters that stand for themselves are one token.
-/

namespace Pathname.Glob

/-- A token of a pattern. -/
inductive Token where
  /-- Any one character. -/
  | one
  /-- Any run of characters, which may be empty. -/
  | many
  /-- The given characters. -/
  | literal (text : Text)
  deriving DecidableEq, Repr

/-- The text of a token as it stands in a pattern. -/
def Token.text : Token → Text
  | one => ['?']
  | many => ['*']
  | literal text => text

/-- Tokens with one run of any characters before them. -/
def addMany : List Token → List Token
  | .many :: rest => .many :: rest
  | rest => .many :: rest

/-- Tokens with one character before them that stands for itself. -/
def addLiteral (c : Char) : List Token → List Token
  | .literal text :: rest => .literal (c :: text) :: rest
  | rest => .literal [c] :: rest

/-- The tokens of a pattern that is not empty. -/
def read : Text → List Token
  | [] => []
  | c :: rest =>
    if c = '?' then .one :: read rest
    else if c = '*' then addMany (read rest)
    else addLiteral c (read rest)

/-- The tokens of a pattern. The empty pattern is one empty literal. -/
def tokens (pattern : Text) : List Token :=
  if pattern.isEmpty then [.literal []] else read pattern

/-! ## No empty literals -/

/-- The literals of a pattern are put together from the right, out of characters that stand for
themselves. What this gives to a text from the text behind its first character, they all have. -/
theorem of_literal_mem_read {P : Text → Prop}
    (hcons : ∀ c t, c ≠ '?' → c ≠ '*' → t = [] ∨ P t → P (c :: t)) {pattern text : Text}
    (h : .literal text ∈ read pattern) : P text := by
  induction pattern generalizing text with
  | nil => simp [read] at h
  | cons c rest ih =>
    rw [read] at h
    split at h
    · exact ih (by simpa using h)
    · rename_i hone
      split at h
      · -- A `*` in front is one more token, or none.
        unfold addMany at h
        split at h
        · rename_i hrest
          exact ih (hrest ▸ h)
        · exact ih (by simpa using h)
      · rename_i hmany
        unfold addLiteral at h
        split at h
        · -- The first literal has grown by the character, the others are as they were.
          rename_i first more hrest
          rcases List.mem_cons.mp h with heq | hmem
          · have hfirst : P first := ih (hrest ▸ List.mem_cons_self)
            exact Token.literal.inj heq ▸ hcons c first hone hmany (.inr hfirst)
          · exact ih (hrest ▸ List.mem_cons_of_mem _ hmem)
        · rcases List.mem_cons.mp h with heq | hmem
          · exact Token.literal.inj heq ▸ hcons c [] hone hmany (.inl rfl)
          · exact ih hmem

/-- The literals of a pattern that is not empty are not empty. -/
theorem literal_ne_nil_of_mem_read {pattern text : Text} (h : .literal text ∈ read pattern) :
    text ≠ [] := by
  apply of_literal_mem_read (fun c t _ _ _ => ?_) h
  exact List.cons_ne_nil c t

/-! ## The first token -/

/-- The first token of a pattern tells the first character. -/
theorem head?_of_head?_read {pattern : Text} {token : Token}
    (h : (read pattern).head? = some token) : pattern.head? = token.text.head? := by
  cases pattern with
  | nil => simp [read] at h
  | cons c rest =>
    rw [read] at h
    split at h
    · rename_i hone
      obtain rfl : .one = token := Option.some.inj h
      rw [hone]
      rfl
    · split at h
      · rename_i hmany
        have htoken : .many = token := by
          unfold addMany at h
          split at h <;> exact Option.some.inj h
        rw [← htoken, hmany]
        rfl
      · unfold addLiteral at h
        split at h <;> exact Option.some.inj h ▸ rfl

/-! ## Characters that stand for themselves -/

section Plain

variable {literal : Text}

/-- Characters that stand for themselves are put in front of the tokens behind them. -/
theorem read_plain_append (hplain : ∀ c ∈ literal, c ≠ '?' ∧ c ≠ '*') (rest : Text) :
    read (literal ++ rest) = literal.foldr addLiteral (read rest) := by
  induction literal with
  | nil => rfl
  | cons c more ih =>
    obtain ⟨⟨hone, hmany⟩, hmore⟩ := List.forall_mem_cons.mp hplain
    simp [read, hone, hmany, ih hmore]

/-- They make up one literal, unless a literal comes behind them. -/
theorem foldr_addLiteral {ts : List Token} (hne : literal ≠ [])
    (hts : ∀ text, ts.head? ≠ some (.literal text)) :
    literal.foldr addLiteral ts = .literal literal :: ts := by
  induction literal with
  | nil => contradiction
  | cons c more ih =>
    cases more with
    | nil =>
      show addLiteral c ts = _
      unfold addLiteral
      split
      · exact absurd rfl (hts _)
      · rfl
    | cons d more =>
      rw [List.foldr_cons, ih (List.cons_ne_nil d more), addLiteral]

/-- A text without `?` and `*` is one token. -/
theorem read_of_plain (hne : literal ≠ []) (hplain : ∀ c ∈ literal, c ≠ '?' ∧ c ≠ '*') :
    read literal = [.literal literal] := by
  have hread := read_plain_append hplain []
  rw [List.append_nil] at hread
  rw [hread]
  exact foldr_addLiteral hne (by simp [read])

end Plain

end Pathname.Glob
