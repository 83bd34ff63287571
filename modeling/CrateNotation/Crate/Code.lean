import CrateNotation.Crate.Name

/-!
# Expressions, statements and blocks

An expression is a macro call, a literal or a path.  A block holds statements: expressions with
and without a semicolon, and empty ones.

## Main Definitions

* `Expr`, `ExprKind` — expressions, with `MacCall`, `MacArgs`, `Lit` and `LitKind`
* `Stmt`, `StmtKind`, `Block` — statements and blocks
-/

namespace CrateNotation

/-- The delimiters of macro arguments. -/
inductive Delimiter where
  | paren
  | brace
  | bracket
  | invisible
deriving DecidableEq

namespace Delimiter

/-- Every delimiter, in the order in which messages list them. -/
def all : List Delimiter := [paren, brace, bracket, invisible]

/-- The word for a delimiter. -/
def text : Delimiter → String
  | paren => "Paren"
  | brace => "Brace"
  | bracket => "Bracket"
  | invisible => "Invisible"

end Delimiter

/-- The arguments of a macro call. -/
inductive MacArgs where
  /-- There are none. -/
  | empty
  /-- Tokens between delimiters. -/
  | delimited (dspan : DelSpan) (delim : Delimiter) (tokens : Option TokenStream)
  /-- Tokens behind an equals sign. -/
  | eq (eqSpan : Span) (tokens : Option TokenStream)
deriving DecidableEq

/-- The tag that macro arguments are written with. -/
def MacArgs.tag : MacArgs → String
  | empty => "Empty"
  | delimited .. => "Delimited"
  | eq .. => "Eq"

/-- What a literal says. -/
inductive LitKind where
  | str (value : String)
  | int (value : Int)
deriving DecidableEq

/-- The tag that a literal's value is written with. -/
def LitKind.tag : LitKind → String
  | str _ => "Str"
  | int _ => "Int"

/-- A macro call. -/
structure MacCall where
  path : Path
  args : MacArgs := .empty
deriving DecidableEq

/-- A literal. -/
structure Lit where
  kind : LitKind
  span : Span := .dummy
deriving DecidableEq

/-- What an expression is. -/
inductive ExprKind where
  | macCall (call : MacCall)
  | lit (lit : Lit)
  | path (path : Path)
deriving DecidableEq

/-- The tag that an expression's kind is written with. -/
def ExprKind.tag : ExprKind → String
  | macCall _ => "MacCall"
  | lit _ => "Lit"
  | path _ => "Path"

/-- An expression. -/
structure Expr where
  id : NodeId
  kind : ExprKind
  span : Span := .dummy
  attrs : List Attribute := []
deriving DecidableEq

/-- What a statement is. -/
inductive StmtKind where
  /-- An expression with a semicolon behind it. -/
  | semi (expr : Expr)
  /-- An expression without a semicolon, at the end of a block. -/
  | expr (expr : Expr)
  | empty
deriving DecidableEq

/-- The tag that a statement's kind is written with. -/
def StmtKind.tag : StmtKind → String
  | semi _ => "Semi"
  | expr _ => "Expr"
  | empty => "Empty"

/-- A statement. -/
structure Stmt where
  id : NodeId
  kind : StmtKind
  span : Span := .dummy
deriving DecidableEq

/-- The rules that a block is checked by. -/
inductive BlockRules where
  | default
  | unsafeRules
deriving DecidableEq

namespace BlockRules

/-- All rules of blocks, in the order in which messages list them. -/
def all : List BlockRules := [default, unsafeRules]

/-- The word for the rules of a block. -/
def text : BlockRules → String
  | default => "Default"
  | unsafeRules => "Unsafe"

end BlockRules

/-- A block of statements. -/
structure Block where
  stmts : List Stmt
  id : NodeId
  rules : BlockRules := .default
  span : Span := .dummy
  tokens : Option TokenStream := none
deriving DecidableEq

end CrateNotation
