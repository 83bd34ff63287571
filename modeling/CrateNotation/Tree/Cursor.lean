import CrateNotation.Tree.Reader

/-!
# A cursor on a row of tokens

A cursor stands on one token of a closed row and is asked to read trees from there, or to look at
the token, or to step over it.  It moves forward only, never past the first end of input, and it
can be asked again after an error, from the token that the error is about.

That the tokens ahead of a cursor close with the end of input is part of its type, so there is
always a token to look at.

## Main Definitions

* `Cursor` — a place in a row of tokens
* `Call`, `Reply` — what a cursor can be asked, and what it answers
* `Cursor.perform` — one call
-/

namespace CrateNotation

/-- A place in a closed row of tokens. -/
structure Cursor where
  /-- How many tokens have been passed. -/
  passed : Nat
  /-- The tokens that have not been passed. -/
  ahead : List Token
  closed : Closed ahead

/-- What a cursor can be asked. -/
inductive Call where
  /-- The first tree of a text. -/
  | first
  /-- Every tree up to the end of input. -/
  | all
  /-- A tree with `depth` lists around it. -/
  | tree (depth : Int)
  /-- A list with `depth` lists around its elements, whose opening parenthesis is passed over. -/
  | list (depth : Int)
  /-- The token that the cursor is on. -/
  | peek
  /-- To step over the token, unless it is the end of input. -/
  | advance
  /-- Whether the token is the end of input. -/
  | atEnd

/-- What a cursor answers. -/
inductive Reply where
  | tree (t : Tree)
  | trees (ts : List Tree)
  | token (t : Token)
  | done
  | flag (b : Bool)

namespace Cursor

/-- A cursor on the first token of a row, if the row is closed. -/
def ofTokens? (tokens : List Token) : Option Cursor :=
  if h : Closed tokens then some ⟨0, tokens, h⟩ else none

/-- What is wrong with a row that no cursor can stand on. -/
def notClosedMessage : String :=
  "token stream must end with an EOF token"

/-- The token that the cursor is on. -/
def peek (c : Cursor) : Token :=
  c.ahead.head c.closed.ne_nil

/-- Whether the cursor is on the end of input. -/
def atEnd (c : Cursor) : Bool :=
  c.peek.isEnd

/-- The cursor before the tokens `rest` that a reading has left. -/
def moveTo (c : Cursor) (rest : List Token) (h : Closed rest) : Cursor :=
  ⟨c.passed + (c.ahead.length - rest.length), rest, h⟩

/-- The cursor one token on, unless it is on the end of input. -/
def advance (c : Cursor) : Cursor :=
  match h : c.ahead with
  | [] => c
  | t :: ts => if ht : t.isEnd then c else c.moveTo ts ((h ▸ c.closed).tail (by simpa using ht))

/-- The answer to a call, and the cursor afterwards. -/
def perform (options : ReadOptions) (call : Call) (c : Cursor) :
    Except ParseError Reply × Cursor :=
  match call with
  | .first => (.tree <$> (Tree.readFirst options c.ahead).1,
      c.moveTo _ (Tree.closed_readFirst options c.closed))
  | .all => (.trees <$> (Tree.readAll options.maxDepth c.ahead).1,
      c.moveTo _ (Tree.closed_readAll options.maxDepth c.closed))
  | .tree depth => (.tree <$> (Tree.read options.maxDepth depth c.ahead).1,
      c.moveTo _ (Tree.closed_read options.maxDepth depth c.closed))
  | .list depth => (.tree <$> (Tree.readList options.maxDepth depth c.ahead).1,
      c.moveTo _ (Tree.closed_readList options.maxDepth depth c.closed))
  | .peek => (.ok (.token c.peek), c)
  | .advance => (.ok .done, c.advance)
  | .atEnd => (.ok (.flag c.atEnd), c)

/-- The answers to calls one after the other, each with the cursor after it. -/
def performAll (options : ReadOptions) : List Call → Cursor →
    List (Except ParseError Reply × Cursor)
  | [], _ => []
  | call :: calls, c =>
    let step := c.perform options call
    step :: performAll options calls step.2

end Cursor

end CrateNotation
