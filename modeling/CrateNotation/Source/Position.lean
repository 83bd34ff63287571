/-!
# Positions in a text

A position names a place in a text in two ways at once: by the number of UTF-8 bytes before it,
and by the line and the column that a reader counts.  Lines and columns start at one, a column
counts characters, and only the line feed ends a line.

There are two roads to a position.  `Position.after` walks over characters one by one and is what
the lexer does; `Position.ofIndex` says of an index into a text, without walking, where it is.

## Main Definitions

* `Position` — offset, line and column
* `Position.next`, `Position.after` — the position past one character, past several
* `Position.ofIndex` — the position of the `i`-th character of a text

## Design Notes

The coordinates are integers.  Everything read from a text has natural ones, but a diagnostic can
be asked for at any position, and one that lies off the text is answered too.

A text is a row of Unicode scalar values, which are what `Char` holds.  A surrogate is none of them
and has no encoding in UTF-8, so texts with a surrogate that stands alone are outside this library.
-/

namespace CrateNotation

/-- A place in a text. -/
structure Position where
  /-- UTF-8 bytes before the place. -/
  offset : Int
  /-- Number of the line, from one. -/
  line : Int
  /-- Number of the character in its line, from one. -/
  column : Int
deriving DecidableEq

/-- The number of bytes that a text takes in UTF-8. -/
def utf8Length : List Char → Nat
  | [] => 0
  | c :: text => c.utf8Size + utf8Length text

@[simp]
theorem utf8Length_nil : utf8Length [] = 0 := rfl

@[simp]
theorem utf8Length_cons (c : Char) (text : List Char) :
    utf8Length (c :: text) = c.utf8Size + utf8Length text := rfl

@[simp]
theorem utf8Length_append (text more : List Char) :
    utf8Length (text ++ more) = utf8Length text + utf8Length more := by
  induction text with
  | nil => simp
  | cons c text ih => simp [ih, Nat.add_assoc]

namespace Position

/-- The beginning of a text. -/
def start : Position := ⟨0, 1, 1⟩

/-- The position just past the character `c` that stands at `p`. -/
def next (p : Position) (c : Char) : Position :=
  if c = '\n' then ⟨p.offset + c.utf8Size, p.line + 1, 1⟩
  else ⟨p.offset + c.utf8Size, p.line, p.column + 1⟩

/-- The position just past the characters `text` that stand at `p`. -/
def after (p : Position) (text : List Char) : Position :=
  text.foldl next p

@[simp]
theorem after_nil (p : Position) : p.after [] = p := rfl

@[simp]
theorem after_cons (p : Position) (c : Char) (text : List Char) :
    p.after (c :: text) = (p.next c).after text := rfl

@[simp]
theorem after_append (p : Position) (text more : List Char) :
    p.after (text ++ more) = (p.after text).after more :=
  List.foldl_append

/-- The index at which the line that a text ends in begins: just past its last line feed, or zero
where there is none. -/
def lastLineStart (text : List Char) : Nat :=
  text.length - (text.reverse.takeWhile (· != '\n')).length

/-- The position of index `i` of a text. Past the end of the text there are no more bytes to
count, but the column goes on. -/
def ofIndex (text : List Char) (i : Nat) : Position where
  offset := utf8Length (text.take i)
  line := 1 + (text.take i).count '\n'
  column := i - lastLineStart (text.take i) + 1

/-- How a position is named in messages. -/
def describe (p : Position) : String :=
  s!"line {p.line}, column {p.column}"

end Position

end CrateNotation
