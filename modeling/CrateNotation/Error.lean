import CrateNotation.Source.Position
import CrateNotation.Text.Quoted
import CrateNotation.Text.Numeral

/-!
# What can be wrong with a text

Errors are kept as causes, each with the position it is blamed on, and are worded in one place per
type.  There are three layers, each holding the one before it.

* `LexError` — the characters make no tokens.
* `ParseError` — the tokens make no tree, or a tree does not follow the schema.
* `Fault` — what stops the building of a node: a `ParseError`, or a limit of the builder itself.

Only `LexError` and `ParseError` speak about the text, so only they have positions.  What was found
is kept as text: the lexer finds a single character, but an error may be made by hand to say
anything.
-/

namespace CrateNotation

open Text (quoted Numeral.digitLimit)

/-- Why characters make no tokens. What the lexer finds is always one character. -/
inductive LexError where
  /-- What stands at `pos` begins no token. -/
  | unexpectedChar (found : String) (pos : Position)
  /-- The string that begins at `pos` is not closed. -/
  | unterminatedString (pos : Position)
  /-- What stands at `pos` follows a backslash and makes no escape with it. -/
  | invalidEscape (found : String) (pos : Position)
  /-- The text ends where more is needed. -/
  | unexpectedEnd
deriving DecidableEq

namespace LexError

/-- The place that the error is blamed on. -/
def pos? : LexError → Option Position
  | unexpectedChar _ pos | unterminatedString pos | invalidEscape _ pos => some pos
  | unexpectedEnd => none

/-- The wording of the error, its place included. What follows the backslash of an invalid escape
is shown as it stands in the text. -/
def message : LexError → String
  | unexpectedChar found pos => s!"Unexpected character {quoted found} at {pos.describe}"
  | unterminatedString pos => s!"Unterminated string at {pos.describe}"
  | invalidEscape found pos =>
    "Invalid escape sequence '\\" ++ found ++ s!"' at {pos.describe}"
  | unexpectedEnd => "Unexpected end of input"

end LexError

/-- Why tokens make no tree, or a tree does not follow the schema. -/
inductive ParseError where
  /-- A token follows the tree that should have been the last. -/
  | unexpectedToken (lexeme : String) (pos : Position)
  /-- Something else is needed at `pos` than what was found there. -/
  | expected (needed found : String) (pos : Position)
  /-- The list that begins at `pos` is not closed. -/
  | unterminatedList (pos : Position)
  /-- A list is closed that was not opened. -/
  | unexpectedClose (pos : Position)
  /-- There is no tree. -/
  | emptyInput
  /-- The list that begins at `pos` lies in too many others. -/
  | nestingTooDeep (limit : Int) (pos : Position)
  /-- The text makes no tokens. -/
  | lexical (error : LexError)
deriving DecidableEq

namespace ParseError

/-- The place that the error is blamed on. -/
def pos? : ParseError → Option Position
  | unexpectedToken _ pos | expected _ _ pos | unterminatedList pos | unexpectedClose pos
  | nestingTooDeep _ pos => some pos
  | emptyInput => none
  | lexical error => error.pos?

/-- The wording of the error, its place included. -/
def message : ParseError → String
  | unexpectedToken lexeme pos => s!"Unexpected token {quoted lexeme} at {pos.describe}"
  | expected needed found pos => s!"Expected {needed}, found {found} at {pos.describe}"
  | unterminatedList pos => s!"Unterminated list at {pos.describe}"
  | unexpectedClose pos => s!"Unexpected closing parenthesis at {pos.describe}"
  | emptyInput => "Empty input"
  | nestingTooDeep limit pos => s!"Nesting deeper than {limit} levels at {pos.describe}"
  | lexical error => s!"Lexer error: {error.message}"

end ParseError

/-- What stops the building of a node. -/
inductive Fault where
  /-- The tree does not follow the schema, or the text makes no tree. -/
  | invalid (error : ParseError)
  /-- A numeral has more digits than are worked out. -/
  | tooManyDigits (count : Nat)
  /-- Every id that a session can issue has been issued. -/
  | idsExhausted
  /-- A tree has a hole where an expression is needed. -/
  | hole
deriving DecidableEq

namespace Fault

/-- The wording of the fault. -/
def message : Fault → String
  | invalid error => error.message
  | tooManyDigits count =>
    s!"Exceeds the limit ({Numeral.digitLimit} digits) for integer string conversion: " ++
      s!"value has {count} digits; use sys.set_int_max_str_digits() to increase the limit"
  | idsExhausted => "node id space exhausted"
  | hole => "Not an S-expression: SExp()"

end Fault

end CrateNotation
