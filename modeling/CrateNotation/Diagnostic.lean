import CrateNotation.Error
import CrateNotation.Source.Locator

/-!
# Diagnostics

A diagnostic shows an error with the line it is about.  It has three rows: the message; the line,
behind its number; and a caret under the offending character, behind a gutter as wide as the line
number.  An error without a position, or with a line that the source does not have, is shown by
its message alone.

## Main Definitions

* `diagnostic` — the rows for a message and a position
* `LexError.diagnostic`, `ParseError.diagnostic` — the rows for an error
-/

namespace CrateNotation

/-- A row of `n` spaces, none if `n` is negative. -/
def spaces (n : Int) : String :=
  String.ofList (List.replicate n.toNat ' ')

/-- The message, the line at `pos` and a caret below it. -/
def diagnostic (message : String) (pos? : Option Position) (source : String) : String :=
  match pos? with
  | none => message
  | some pos =>
    match (Locator.ofText source.toList).lineText? pos.line with
    | none => message
    | some line =>
      let number := toString pos.line
      let gutter := spaces number.length
      let caret := spaces (pos.column - 1) ++ "^"
      s!"{message}\n {number} | {String.ofList line}\n {gutter} | {caret}"

/-- The diagnostic of a lexical error. -/
def LexError.diagnostic (error : LexError) (source : String) : String :=
  CrateNotation.diagnostic error.message error.pos? source

/-- The diagnostic of an error in tokens or in a tree. -/
def ParseError.diagnostic (error : ParseError) (source : String) : String :=
  CrateNotation.diagnostic error.message error.pos? source

end CrateNotation
