import CrateNotation.Text.Printable

/-!
# Quoted text in messages

A message that shows a text of the user puts it between quotes, so that blanks at its ends and
characters that cannot be seen become visible.  Apostrophes are used as quotes, unless the text
has apostrophes and no quotation marks.  Inside, the quote in use and the backslash are preceded
by a backslash, and a character that is not printable is written as an escape: `\n`, `\r`, `\t`,
or its code point in two, four or eight hexadecimal digits after `\x`, `\u` or `\U`.

## Main Definitions

* `quoted` — a text as messages show it
-/

namespace CrateNotation.Text

/-- The last `width` hexadecimal digits of `n`, in lower case. -/
def hexDigits : Nat → Nat → List Char
  | 0, _ => []
  | width + 1, n => hexDigits width (n / 16) ++ [Nat.digitChar (n % 16)]

@[simp]
theorem length_hexDigits (width n : Nat) : (hexDigits width n).length = width := by
  induction width generalizing n with
  | zero => rfl
  | succ width ih => simp [hexDigits, ih]

/-- The escape of a character by its code point, in the shortest of the three lengths. -/
def codePointEscape (c : Char) : List Char :=
  if c.toNat < 0x100 then '\\' :: 'x' :: hexDigits 2 c.toNat
  else if c.toNat < 0x10000 then '\\' :: 'u' :: hexDigits 4 c.toNat
  else '\\' :: 'U' :: hexDigits 8 c.toNat

/-- A character inside a text that stands between two `quote` characters. -/
def quotedChar (quote c : Char) : List Char :=
  if c = quote ∨ c = '\\' then ['\\', c]
  else if c = '\n' then ['\\', 'n']
  else if c = '\r' then ['\\', 'r']
  else if c = '\t' then ['\\', 't']
  else if isPrintable c then [c]
  else codePointEscape c

/-- The quote for a text: apostrophes give way where they would have to be escaped and quotation
marks would not. -/
def quoteFor (text : List Char) : Char :=
  if '\'' ∈ text ∧ '"' ∉ text then '"' else '\''

/-- A text between quotes, as messages show it. -/
def quoted (text : String) : String :=
  let quote := quoteFor text.toList
  String.ofList (quote :: text.toList.flatMap (quotedChar quote) ++ [quote])

end CrateNotation.Text
