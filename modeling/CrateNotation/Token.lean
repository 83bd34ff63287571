import CrateNotation.Source.Position

/-!
# Tokens

A text of the notation is a row of tokens with blanks and comments between them.  A token keeps
what it stands for and where it began.

## Main Definitions

* `TokenKind` — the kinds of tokens
* `Token` — a token at its place
-/

namespace CrateNotation

/-- The kinds of tokens. -/
inductive TokenKind where
  | openParen
  | closeParen
  | symbol
  | keyword
  | string
  | number
  | nil
  | endOfInput
deriving DecidableEq

namespace TokenKind

/-- Every kind of token. -/
def all : List TokenKind :=
  [openParen, closeParen, symbol, keyword, string, number, nil, endOfInput]

/-- What tokens of a kind are called. -/
def label : TokenKind → String
  | openParen => "("
  | closeParen => ")"
  | symbol => "symbol"
  | keyword => "keyword"
  | string => "string"
  | number => "number"
  | nil => "nil"
  | endOfInput => "end of input"

end TokenKind

/-- A token of a text. -/
structure Token where
  kind : TokenKind
  /-- What was written, except that a keyword is without its colon, a string is what the literal
  stands for, and the end of input is empty. -/
  lexeme : String
  /-- Where the token begins. -/
  pos : Position
deriving DecidableEq

namespace Token

/-- The token that closes every row of tokens. -/
def isEnd (t : Token) : Bool :=
  t.kind = .endOfInput

end Token

end CrateNotation
