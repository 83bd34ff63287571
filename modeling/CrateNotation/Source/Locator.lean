import CrateNotation.Source.Position

/-!
# Finding lines and positions in a text

A locator answers questions about one text: how many bytes come before an index, what position an
index has, what a line says.  It is made for lookups whose indices mostly rise.  The starts of the
lines are gathered once and searched by bisection, and the number of bytes is carried along from
one lookup to the next, so that only the characters in between are counted.  A lookup before the
carried mark begins again at the start of the text.

Every lookup therefore returns the locator to ask next.

## Main Definitions

* `Locator` — a text with its line starts and a carried mark
* `Locator.byteOffset`, `Locator.position` — lookups by index
* `Locator.lineText?` — what a line says
-/

namespace CrateNotation

/-- A text prepared for lookups. -/
structure Locator where
  /-- The whole text. -/
  text : List Char
  /-- The index at which each line begins, in rising order. -/
  lineStarts : Array Nat
  /-- The index of the lookup before. -/
  mark : Nat
  /-- The number of bytes before the mark. -/
  bytes : Nat
  /-- The text from the mark on. -/
  ahead : List Char

namespace Locator

/-- The indices just past each line feed of a text that begins at index `i`. -/
def startsAfter (i : Nat) : List Char → List Nat
  | [] => []
  | c :: text =>
    if c = '\n' then (i + 1) :: startsAfter (i + 1) text else startsAfter (i + 1) text

/-- A locator for `text`, with its mark at the beginning. -/
def ofText (text : List Char) : Locator where
  text
  lineStarts := (0 :: startsAfter 0 text).toArray
  mark := 0
  bytes := 0
  ahead := text

/-- The same text with the mark back at its beginning. -/
def rewind (l : Locator) : Locator :=
  { l with mark := 0, bytes := 0, ahead := l.text }

/-- Carries the mark forward by `n` characters, counting the bytes that it passes. -/
def advance (l : Locator) (n : Nat) : Locator :=
  { l with
    mark := l.mark + n
    bytes := l.bytes + utf8Length (l.ahead.take n)
    ahead := l.ahead.drop n }

/-- Carries the mark to index `i`, from the beginning if `i` lies before it. -/
def moveTo (l : Locator) (i : Nat) : Locator :=
  if i < l.mark then l.rewind.advance i else l.advance (i - l.mark)

/-- The number of bytes before index `i`. -/
def byteOffset (l : Locator) (i : Nat) : Nat × Locator :=
  let l := l.moveTo i
  (l.bytes, l)

/-- How many of the rising numbers `starts` are at most `i`, given that those before `lo` are and
those from `hi` on are not. -/
def upperBound (starts : Array Nat) (i lo hi : Nat) : Nat :=
  if lo < hi then
    let mid := (lo + hi) / 2
    if i < starts.getD mid 0 then upperBound starts i lo mid
    else upperBound starts i (mid + 1) hi
  else lo
termination_by hi - lo

/-- The number of the line that index `i` lies in, from one. -/
def lineOf (l : Locator) (i : Nat) : Nat :=
  upperBound l.lineStarts i 0 l.lineStarts.size

/-- The position of index `i`. -/
def position (l : Locator) (i : Nat) : Position × Locator :=
  let line := l.lineOf i
  let column := i - l.lineStarts.getD (line - 1) 0 + 1
  let (offset, l) := l.byteOffset i
  (⟨offset, line, column⟩, l)

/-- The index at which line `n` begins. Lines count from one; zero is the last line, minus one the
line before it, and so on back to the first. -/
def lineStart? (l : Locator) (n : Int) : Option Nat :=
  let k := if 1 ≤ n then n - 1 else n - 1 + l.lineStarts.size
  if 0 ≤ k then l.lineStarts[k.toNat]? else none

/-- What line `n` says, without the line feed at its end. -/
def lineText? (l : Locator) (n : Int) : Option (List Char) :=
  (l.lineStart? n).map fun start => (l.text.drop start).takeWhile (· != '\n')

end Locator

end CrateNotation
