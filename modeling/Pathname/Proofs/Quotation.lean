import Mathlib.Algebra.Group.Nat.Defs
import Pathname.Quoted

/-!
# Quoted texts can be read back

A quoted text tells where it ends and what was quoted, whatever comes behind it. The two quotation
marks, a backslash in front of what is no escape, and codes of three widths are all told apart by the
first characters of what stands for a character.

## Architecture

- What may stand for a character (`escape_shape`) is read back (`readFirst_escape`), and it never looks
  like the quotation mark that ends the text (`escape_append_ne`).
- From character to character this carries over to the quoted text (`quote_append_inj`), and from text
  to text to the list of quoted texts (`quoteList_inj`).
- `isPrintable_of_mem_quote`: a quoted text is printable.
-/

namespace Pathname

namespace Quoted

/-! ## Reading hexadecimal digits -/

/-- The number of a hexadecimal digit, a letter being small. -/
def digitNumber (d : Char) : Nat := if d.toNat < 0x61 then d.toNat - 0x30 else d.toNat - 0x61 + 10

/-- The number that hexadecimal digits write. -/
def number (digits : Text) : Nat := digits.foldl (fun n d => 16 * n + digitNumber d) 0

theorem digitNumber_hexDigit : ∀ n < 16, digitNumber (hexDigit n) = n := by decide

theorem length_hexDigits (width n : Nat) : (hexDigits width n).length = width := by
  induction width generalizing n with
  | zero => rfl
  | succ width ih => simp [hexDigits, ih]

theorem number_hexDigits (width n : Nat) : number (hexDigits width n) = n % 16 ^ width := by
  induction width generalizing n with
  | zero => simp [hexDigits, number, Nat.mod_one]
  | succ width ih =>
    have hlast : digitNumber (hexDigit (n % 16)) = n % 16 :=
      digitNumber_hexDigit _ (Nat.mod_lt n (by decide))
    have hfirst : number (hexDigits width (n / 16)) = n / 16 % 16 ^ width := ih (n / 16)
    have hpower : 16 ^ (width + 1) = 16 * 16 ^ width := by
      rw [Nat.pow_succ, Nat.mul_comm]
    unfold number at hfirst ⊢
    rw [hexDigits, List.foldl_append, hfirst, hpower, Nat.mod_mul]
    simp only [List.foldl_cons, List.foldl_nil, hlast]
    omega

/-- The digits of a small number are printable. -/
theorem isPrintable_of_mem_hexDigits {width n : Nat} {d : Char} (h : d ∈ hexDigits width n) :
    Unicode.isPrintable d = true := by
  induction width generalizing n with
  | zero => simp [hexDigits] at h
  | succ width ih =>
    rw [hexDigits, List.mem_append, List.mem_singleton] at h
    rcases h with hfirst | rfl
    · exact ih hfirst
    · have hascii : ∀ k < 16, 0x20 ≤ (hexDigit k).toNat ∧ (hexDigit k).toNat ≤ 0x7e := by decide
      obtain ⟨hlow, hhigh⟩ := hascii (n % 16) (Nat.mod_lt n (by decide))
      exact Unicode.isPrintable_of_ascii hlow hhigh

/-! ## Reading one character -/

/-- The number of digits behind a backslash and a letter that announces a code. -/
def codeWidth? (c : Char) : Option Nat :=
  if c = 'x' then some 2 else if c = 'u' then some 4 else if c = 'U' then some 8 else none

/-- The character that another one stands for behind a backslash, unless it announces a code. -/
def named (c : Char) : Char :=
  if c = 't' then '\t' else if c = 'n' then '\n' else if c = 'r' then '\r' else c

/-- Reads the first of the characters between quotation marks, and leaves the others. -/
def readFirst : Text → Option (Char × Text)
  | '\\' :: c :: rest =>
    match codeWidth? c with
    | some width => some (Char.ofNat (number (rest.take width)), rest.drop width)
    | none => some (named c, rest)
  | c :: rest => some (c, rest)
  | [] => none

/-- A quotation mark. -/
def IsMark (quotation : Char) : Prop := quotation = single ∨ quotation = double

theorem isMark_mark (t : Text) : IsMark (mark t) := by
  unfold mark
  split
  · exact .inr rfl
  · exact .inl rfl

/-- A code with enough digits is read back. -/
theorem readFirst_code {letter : Char} {width : Nat} (hwidth : codeWidth? letter = some width)
    {c : Char} (hc : c.toNat < 16 ^ width) (rest : Text) :
    readFirst ('\\' :: letter :: hexDigits width c.toNat ++ rest) = some (c, rest) := by
  have htake : (hexDigits width c.toNat ++ rest).take width = hexDigits width c.toNat :=
    List.take_left' (length_hexDigits width _)
  have hdrop : (hexDigits width c.toNat ++ rest).drop width = rest :=
    List.drop_left' (length_hexDigits width _)
  simp only [List.cons_append, readFirst, hwidth, htake, hdrop, number_hexDigits,
    Nat.mod_eq_of_lt hc, Char.ofNat_toNat]

theorem readFirst_escapeCode (c : Char) (rest : Text) :
    readFirst (escapeCode c.toNat ++ rest) = some (c, rest) := by
  unfold escapeCode
  split
  · exact readFirst_code rfl (by omega) rest
  · split
    · exact readFirst_code rfl (by omega) rest
    · exact readFirst_code rfl c.val.toNat_lt rest

variable {quotation : Char}

/-- What may stand for a character: a backslash and the character itself, a backslash and a letter, the
character alone, or a code. -/
theorem escape_shape (quotation c : Char) :
    (c = '\\' ∨ c = quotation) ∧ escape quotation c = ['\\', c] ∨
    (∃ letter ∈ ['t', 'n', 'r'], named letter = c ∧ escape quotation c = ['\\', letter]) ∨
    (c ≠ '\\' ∧ c ≠ quotation ∧ Unicode.isPrintable c = true ∧ escape quotation c = [c]) ∨
    escape quotation c = escapeCode c.toNat := by
  unfold escape
  by_cases hescaped : c = '\\' ∨ c = quotation
  · exact .inl ⟨hescaped, if_pos hescaped⟩
  · rw [if_neg hescaped]
    refine .inr ?_
    by_cases hblank : c = '\t' ∨ c = '\n' ∨ c = '\r'
    · refine .inl ?_
      rcases hblank with rfl | rfl | rfl
      · exact ⟨'t', by simp, rfl, rfl⟩
      · exact ⟨'n', by simp, rfl, rfl⟩
      · exact ⟨'r', by simp, rfl, rfl⟩
    · obtain ⟨htab, hnewline, hreturn⟩ : c ≠ '\t' ∧ c ≠ '\n' ∧ c ≠ '\r' := by
        simpa only [not_or] using hblank
      rw [if_neg htab, if_neg hnewline, if_neg hreturn]
      refine .inr ?_
      split
      · rename_i hprintable
        obtain ⟨hbackslash, hmark⟩ := not_or.mp hescaped
        exact .inl ⟨hbackslash, hmark, hprintable, rfl⟩
      · exact .inr rfl

/-- **What stands for a character is read back**, whatever comes behind it. -/
theorem readFirst_escape (hmark : IsMark quotation) (c : Char) (rest : Text) :
    readFirst (escape quotation c ++ rest) = some (c, rest) := by
  rcases escape_shape quotation c with ⟨hescaped, hshape⟩ | ⟨letter, hletter, rfl, hshape⟩ |
    ⟨hbackslash, -, -, hshape⟩ | hshape
  · rw [hshape]
    rcases hescaped with rfl | rfl
    · rfl
    · rcases hmark with rfl | rfl <;> rfl
  · rw [hshape]
    have hcode : codeWidth? letter = none := by
      simp only [List.mem_cons, List.not_mem_nil, or_false] at hletter
      rcases hletter with rfl | rfl | rfl <;> rfl
    simp [readFirst, hcode]
  · rw [hshape]
    -- A character that stands for itself is no backslash.
    simp [readFirst, hbackslash]
  · rw [hshape]
    exact readFirst_escapeCode c rest

/-! ## The look of what stands for a character -/

theorem isPrintable_of_isMark (hmark : IsMark quotation) :
    Unicode.isPrintable quotation = true := by
  rcases hmark with rfl | rfl <;> exact Unicode.isPrintable_of_ascii (by decide) (by decide)

theorem isPrintable_backslash : Unicode.isPrintable '\\' = true :=
  Unicode.isPrintable_of_ascii (by decide) (by decide)

/-- The escape of a code is a backslash, a letter and digits. -/
theorem escapeCode_eq (n : Nat) :
    ∃ letter ∈ ['x', 'u', 'U'], ∃ width, escapeCode n = '\\' :: letter :: hexDigits width n := by
  unfold escapeCode
  split
  · exact ⟨'x', by simp, 2, rfl⟩
  · split
    · exact ⟨'u', by simp, 4, rfl⟩
    · exact ⟨'U', by simp, 8, rfl⟩

/-- **A character stands for itself, or a backslash and printable characters stand for it.** It stands
for itself only if it is printable and not the quotation mark. -/
theorem escape_cases (hmark : IsMark quotation) (c : Char) :
    (escape quotation c = [c] ∧ c ≠ quotation ∧ Unicode.isPrintable c = true) ∨
      ∃ tail, escape quotation c = '\\' :: tail ∧ ∀ d ∈ tail, Unicode.isPrintable d = true := by
  have hletters : ∀ d ∈ ['t', 'n', 'r', 'x', 'u', 'U'], Unicode.isPrintable d = true :=
    fun d => Unicode.isPrintable_of_all_ascii (by decide)
  rcases escape_shape quotation c with ⟨hescaped, hshape⟩ | ⟨letter, hletter, -, hshape⟩ |
    ⟨-, hne, hprintable, hshape⟩ | hshape
  · refine .inr ⟨[c], hshape, ?_⟩
    rcases hescaped with rfl | rfl
    · simpa using isPrintable_backslash
    · simpa using isPrintable_of_isMark hmark
  · refine .inr ⟨[letter], hshape, ?_⟩
    simpa using hletters letter (List.mem_append_left ['x', 'u', 'U'] hletter)
  · exact .inl ⟨hshape, hne, hprintable⟩
  · obtain ⟨letter, hletter, width, hcode⟩ := escapeCode_eq c.toNat
    refine .inr ⟨letter :: hexDigits width c.toNat, hshape.trans hcode, ?_⟩
    intro d hd
    rcases List.mem_cons.mp hd with rfl | hdigit
    · exact hletters d (List.mem_append_right ['t', 'n', 'r'] hletter)
    · exact isPrintable_of_mem_hexDigits hdigit

/-- What stands for a character does not begin like the end of the text. -/
theorem escape_append_ne (hmark : IsMark quotation) (c : Char) (rest behind : Text) :
    escape quotation c ++ rest ≠ quotation :: behind := by
  intro h
  rcases escape_cases hmark c with ⟨hself, hne, -⟩ | ⟨tail, hescape, -⟩
  · rw [hself] at h
    exact hne (List.cons.inj h).1
  · rw [hescape] at h
    have hbackslash : '\\' = quotation := (List.cons.inj h).1
    rcases hmark with rfl | rfl <;> simp [single, double] at hbackslash

theorem isPrintable_of_mem_escape (hmark : IsMark quotation) {c d : Char}
    (h : d ∈ escape quotation c) : Unicode.isPrintable d = true := by
  rcases escape_cases hmark c with ⟨hself, -, hprintable⟩ | ⟨tail, hescape, htail⟩
  · rw [hself, List.mem_singleton] at h
    exact h ▸ hprintable
  · rw [hescape, List.mem_cons] at h
    rcases h with rfl | hd
    · exact isPrintable_backslash
    · exact htail d hd

/-! ## Reading up to the quotation mark -/

/-- Characters between quotation marks are told apart from what comes behind the second mark. -/
theorem flatMap_escape_inj (hmark : IsMark quotation) {t u behind behind' : Text}
    (h : t.flatMap (escape quotation) ++ quotation :: behind =
      u.flatMap (escape quotation) ++ quotation :: behind') : t = u ∧ behind = behind' := by
  induction t generalizing u with
  | nil =>
    cases u with
    | nil => exact ⟨rfl, List.tail_eq_of_cons_eq h⟩
    | cons d u =>
      simp only [List.flatMap_cons, List.append_assoc] at h
      exact absurd h.symm (escape_append_ne hmark d _ behind)
  | cons c t ih =>
    cases u with
    | nil =>
      simp only [List.flatMap_cons, List.append_assoc] at h
      exact absurd h (escape_append_ne hmark c _ behind')
    | cons d u =>
      simp only [List.flatMap_cons, List.append_assoc] at h
      -- Both sides are read from the left: the first characters agree, and so do the rests.
      have hread := congrArg readFirst h
      rw [readFirst_escape hmark, readFirst_escape hmark] at hread
      simp only [Option.some.injEq, Prod.mk.injEq] at hread
      obtain ⟨rfl, hrest⟩ := hread
      obtain ⟨rfl, hbehind⟩ := ih hrest
      exact ⟨rfl, hbehind⟩

end Quoted

open Quoted

/-- **A quoted text tells where it ends and what was quoted.** -/
theorem quote_append_inj {t u behind behind' : Text}
    (h : quote t ++ behind = quote u ++ behind') : t = u ∧ behind = behind' := by
  simp only [quote, List.cons_append, List.append_assoc, List.nil_append, List.cons.injEq] at h
  obtain ⟨hmark, hrest⟩ := h
  rw [← hmark] at hrest
  exact flatMap_escape_inj (isMark_mark t) hrest

theorem isPrintable_of_mem_quote {t : Text} {c : Char} (h : c ∈ quote t) :
    Unicode.isPrintable c = true := by
  have hmark := isMark_mark t
  simp only [quote, List.cons_append, List.mem_cons, List.mem_append, List.mem_flatMap,
    List.not_mem_nil, or_false] at h
  rcases h with rfl | ⟨d, -, hc⟩ | rfl
  · exact isPrintable_of_isMark hmark
  · exact isPrintable_of_mem_escape hmark hc
  · exact isPrintable_of_isMark hmark

/-! ## Lists of quoted texts -/

/-- What comes behind a quoted text of a list: the other ones, and the bracket. -/
def listEnd : List Text → Text
  | [] => [']']
  | t :: ts => ',' :: ' ' :: quote t ++ listEnd ts

theorem quoteList_cons (t : Text) (ts : List Text) :
    quoteList (t :: ts) = '[' :: quote t ++ listEnd ts := by
  induction ts generalizing t with
  | nil => simp [quoteList, listEnd]
  | cons u us ih =>
    have hrest := ih u
    simp only [quoteList, List.map_cons, List.cons_append, List.cons.injEq, true_and] at hrest ⊢
    rw [List.intercalate_cons_cons, List.append_assoc, hrest]
    simp [listEnd]

theorem listEnd_inj {ts us : List Text} (h : listEnd ts = listEnd us) : ts = us := by
  induction ts generalizing us with
  | nil =>
    cases us with
    | nil => rfl
    | cons u us => simp [listEnd] at h
  | cons t ts ih =>
    cases us with
    | nil => simp [listEnd] at h
    | cons u us =>
      simp only [listEnd, List.cons_append, List.cons.injEq, true_and] at h
      obtain ⟨rfl, hrest⟩ := quote_append_inj h
      rw [ih hrest]

/-- A list that is not empty does not look like the empty one. -/
theorem quoteList_cons_ne (t : Text) (ts : List Text) : quoteList (t :: ts) ≠ quoteList [] := by
  intro h
  rw [quoteList_cons] at h
  have hmark : mark t = ']' := (List.cons.inj (List.cons.inj h).2).1
  rcases isMark_mark t with hsingle | hdouble
  · simp [hsingle, single] at hmark
  · simp [hdouble, double] at hmark

/-- **A list of quoted texts tells which texts were quoted**, and in which order. -/
theorem quoteList_inj {ts us : List Text} : quoteList ts = quoteList us ↔ ts = us := by
  constructor
  · intro h
    cases ts with
    | nil =>
      cases us with
      | nil => rfl
      | cons u us => exact absurd h.symm (quoteList_cons_ne u us)
    | cons t ts =>
      cases us with
      | nil => exact absurd h (quoteList_cons_ne t ts)
      | cons u us =>
        rw [quoteList_cons, quoteList_cons] at h
        obtain ⟨rfl, hrest⟩ := quote_append_inj (List.cons.inj h).2
        rw [listEnd_inj hrest]
  · rintro rfl
    rfl

end Pathname
