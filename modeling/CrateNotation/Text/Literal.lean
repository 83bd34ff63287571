/-!
# String literals

A string literal stands between quotation marks.  Every character stands for itself except the
quotation mark, which ends the literal, and the backslash, which makes one of five escapes with
the character after it: `\n`, `\t`, `\r`, `\\` and `\"`.

Writing and reading are separate: `escape` writes the inside of a literal, `readLiteral` reads
from just past the opening mark to the closing one.  Any text may follow the closing mark.

## Main Definitions

* `escape` — a text as the inside of a literal
* `LiteralReading` — the three ways in which reading a literal ends
* `readLiteral` — reading, from just past the opening mark
-/

namespace CrateNotation.Text

/-- How a character is written inside a string literal. -/
def escapeChar (c : Char) : List Char :=
  if c = '\n' then ['\\', 'n']
  else if c = '\t' then ['\\', 't']
  else if c = '\r' then ['\\', 'r']
  else if c = '\\' then ['\\', '\\']
  else if c = '"' then ['\\', '"']
  else [c]

/-- How a text is written inside a string literal. -/
def escape (text : List Char) : List Char :=
  text.flatMap escapeChar

@[simp]
theorem escape_nil : escape [] = [] := rfl

@[simp]
theorem escape_cons (c : Char) (text : List Char) :
    escape (c :: text) = escapeChar c ++ escape text := rfl

@[simp]
theorem escape_append (text more : List Char) :
    escape (text ++ more) = escape text ++ escape more :=
  List.flatMap_append

/-- What a backslash and the character `c` stand for, if they make an escape. -/
def unescape? (c : Char) : Option Char :=
  if c = 'n' then some '\n'
  else if c = 't' then some '\t'
  else if c = 'r' then some '\r'
  else if c = '\\' then some '\\'
  else if c = '"' then some '"'
  else none

/-- How reading a string literal ends. -/
inductive LiteralReading where
  /-- The closing mark was met. The literal stands for `value`; it is spelled `spelling`, without
  the opening mark and with the closing one; `rest` follows. -/
  | closed (value spelling rest : List Char)
  /-- A backslash is followed by `c`, which makes no escape with it. The text up to and with the
  backslash is `before`. -/
  | badEscape (before : List Char) (c : Char)
  /-- The text ends before the literal does. -/
  | unterminated

/-- The reading of a literal that is longer in front by a piece spelled `spelling` which stands
for the character `c`. -/
def LiteralReading.push (c : Char) (spelling : List Char) : LiteralReading → LiteralReading
  | closed value spelled rest => closed (c :: value) (spelling ++ spelled) rest
  | badEscape before bad => badEscape (spelling ++ before) bad
  | unterminated => unterminated

/-- Reads a string literal from just past its opening mark. -/
def readLiteral : List Char → LiteralReading
  | [] => .unterminated
  | '"' :: rest => .closed [] ['"'] rest
  | ['\\'] => .unterminated
  | '\\' :: c :: rest =>
    match unescape? c with
    | some value => (readLiteral rest).push value ['\\', c]
    | none => .badEscape ['\\'] c
  | c :: rest => (readLiteral rest).push c [c]

/-- The literal of a longer reading is closed exactly if the rest of it was. -/
theorem LiteralReading.push_eq_closed_iff {c : Char} {piece value spelling rest : List Char}
    {r : LiteralReading} :
    r.push c piece = .closed value spelling rest ↔
      ∃ value' spelling', r = .closed value' spelling' rest ∧ value = c :: value' ∧
        spelling = piece ++ spelling' := by
  cases r <;> grind [push]

/-- Nothing is lost: a literal that was read is its spelling and what follows it. -/
theorem spelling_append_rest {text value spelling rest : List Char}
    (h : readLiteral text = .closed value spelling rest) : spelling ++ rest = text := by
  fun_induction readLiteral text generalizing value spelling with
  | case1 => simp at h
  | case2 => grind
  | case3 => simp at h
  | case4 c rest' v hv ih =>
    obtain ⟨_, _, hr, -, rfl⟩ := LiteralReading.push_eq_closed_iff.1 h
    simp [ih hr]
  | case5 => simp at h
  | case6 c rest' _ _ _ ih =>
    obtain ⟨_, _, hr, -, rfl⟩ := LiteralReading.push_eq_closed_iff.1 h
    simp [ih hr]

end CrateNotation.Text
