import Pathname.Text
import Pathname.Unicode.Printable

/-!
# Quoted texts

How a text is shown in a message. The text stands between two quotation marks, on one line, with
an escape in place of every character that is not printable, of every backslash, and of the
quotation mark itself.

## Contents

- `Quoted.mark`: the quotation mark of a text.
- `Quoted.escape`: what stands for one character.
- `quote`, `quoteList`: a text, and a list of texts.
-/

namespace Pathname

namespace Quoted

/-- The apostrophe, which is the preferred quotation mark. -/
def single : Char := '\x27'

/-- The double quotation mark. -/
def double : Char := '\x22'

/-- The quotation mark of a text: the apostrophe, unless the text holds an apostrophe and no
double mark. -/
def mark (t : Text) : Char :=
  if t.contains single && !t.contains double then double else single

/-- The hexadecimal digit of a number below 16, a letter being small. -/
def hexDigit (n : Nat) : Char :=
  if n < 10 then Char.ofNat (0x30 + n) else Char.ofNat (0x61 + (n - 10))

/-- The last `width` hexadecimal digits of a number. -/
def hexDigits : (width : Nat) → Nat → Text
  | 0, _ => []
  | width + 1, n => hexDigits width (n / 16) ++ [hexDigit (n % 16)]

/-- The escape of a code point by its number: two, four or eight digits, whichever suffice. -/
def escapeCode (n : Nat) : Text :=
  if n < 0x100 then '\\' :: 'x' :: hexDigits 2 n
  else if n < 0x10000 then '\\' :: 'u' :: hexDigits 4 n
  else '\\' :: 'U' :: hexDigits 8 n

/-- What stands for a character between the quotation marks `quotation`. -/
def escape (quotation : Char) (c : Char) : Text :=
  if c = '\\' ∨ c = quotation then ['\\', c]
  else if c = '\t' then ['\\', 't']
  else if c = '\n' then ['\\', 'n']
  else if c = '\r' then ['\\', 'r']
  else if Unicode.isPrintable c then [c]
  else escapeCode c.toNat

end Quoted

/-- A text between quotation marks. -/
def quote (t : Text) : Text :=
  let mark := Quoted.mark t
  mark :: t.flatMap (Quoted.escape mark) ++ [mark]

/-- A list of texts: quoted, in brackets, with a comma and a space between two. -/
def quoteList (ts : List Text) : Text :=
  '[' :: ", ".toList.intercalate (ts.map quote) ++ [']']

end Pathname
