import CrateNotation.Crate.Basic

/-!
# Kinds of nodes and vocabularies

The schema of the notation speaks of nodes by their kind, and of words by their vocabulary.  Both
are names for types: a kind for the type of the nodes of that kind, a vocabulary for the type of
what its words mean.

## Main Definitions

* `Vocabulary`, `Vocabulary.Word` — sets of words
* `NodeKind`, `NodeKind.Value` — kinds of nodes
-/

namespace CrateNotation

/-- The sets of words that the notation chooses from. -/
inductive Vocabulary where
  | delimiter
  | restriction
  | mutability
  | safety
  | constness
  | coroutineKind
  | defaultness
  | blockRules
deriving DecidableEq

namespace Vocabulary

/-- What the words of a vocabulary mean. -/
@[reducible]
def Word : Vocabulary → Type
  | delimiter => Delimiter
  | restriction => Restriction
  | mutability => Mutability
  | safety => Safety
  | constness => Constness
  | coroutineKind => CoroutineKind
  | defaultness => Defaultness
  | blockRules => BlockRules

/-- The words of a vocabulary, in the order in which messages list them. -/
def all : (v : Vocabulary) → List v.Word
  | delimiter => Delimiter.all
  | restriction => Restriction.all
  | mutability => Mutability.all
  | safety => Safety.all
  | constness => Constness.all
  | coroutineKind => CoroutineKind.all
  | defaultness => Defaultness.all
  | blockRules => BlockRules.all

/-- How a word is written. -/
def text : (v : Vocabulary) → v.Word → String
  | delimiter => Delimiter.text
  | restriction => Restriction.text
  | mutability => Mutability.text
  | safety => Safety.text
  | constness => Constness.text
  | coroutineKind => CoroutineKind.text
  | defaultness => Defaultness.text
  | blockRules => BlockRules.text

/-- The word that a text is, if it is one of the vocabulary. -/
def find? (v : Vocabulary) (text : String) : Option v.Word :=
  v.all.find? (v.text · = text)

/-- The words of a vocabulary as messages list them. -/
def listing (v : Vocabulary) : String :=
  ", ".intercalate (v.all.map v.text)

/-- Different words are written differently, so that each is read as itself. -/
theorem find?_text : (v : Vocabulary) → (w : v.Word) → v.find? (v.text w) = some w
  | delimiter, w | restriction, w | mutability, w | safety, w | constness, w | coroutineKind, w
  | defaultness, w | blockRules, w => by cases w <;> rfl

end Vocabulary

/-- The kinds of nodes, and of rows of nodes. -/
inductive NodeKind where
  | crate
  | items
  | item
  | visibility
  | itemKind
  | fn
  | fnSig
  | fnHeader
  | fnDecl
  | params
  | param
  | returnTy
  | generics
  | whereClause
  | ty
  | tyKind
  | pat
  | patKind
  | bindingMode
  | block
  | stmts
  | stmt
  | stmtKind
  | expr
  | exprKind
  | macCall
  | lit
  | litKind
  | macArgs
  | delimiter
  | path
  | pathSegments
  | pathSegment
  | genericArgs
  | span
  | modSpans
  | delSpan
  | ident
  | tokenStream
deriving DecidableEq

namespace NodeKind

/-- The nodes of a kind. -/
@[reducible]
def Value : NodeKind → Type
  | crate => Crate
  | items => List Item
  | item => Item
  | visibility => Visibility
  | itemKind => ItemKind
  | fn => Fn
  | fnSig => FnSig
  | fnHeader => FnHeader
  | fnDecl => FnDecl
  | params => List Param
  | param => Param
  | returnTy => ReturnTy
  | generics => Generics
  | whereClause => WhereClause
  | ty => Ty
  | tyKind => TyKind
  | pat => Pat
  | patKind => PatKind
  | bindingMode => BindingMode
  | block => Block
  | stmts => List Stmt
  | stmt => Stmt
  | stmtKind => StmtKind
  | expr => Expr
  | exprKind => ExprKind
  | macCall => MacCall
  | lit => Lit
  | litKind => LitKind
  | macArgs => MacArgs
  | delimiter => Delimiter
  | path => Path
  | pathSegments => List PathSegment
  | pathSegment => PathSegment
  | genericArgs => GenericArgs
  | span => Span
  | modSpans => ModSpans
  | delSpan => DelSpan
  | ident => Ident
  | tokenStream => TokenStream

/-- Equality of nodes of a kind can be decided. -/
instance decidableEqValue : (k : NodeKind) → DecidableEq k.Value
  | crate => inferInstanceAs (DecidableEq Crate)
  | items => inferInstanceAs (DecidableEq (List Item))
  | item => inferInstanceAs (DecidableEq Item)
  | visibility => inferInstanceAs (DecidableEq Visibility)
  | itemKind => inferInstanceAs (DecidableEq ItemKind)
  | fn => inferInstanceAs (DecidableEq Fn)
  | fnSig => inferInstanceAs (DecidableEq FnSig)
  | fnHeader => inferInstanceAs (DecidableEq FnHeader)
  | fnDecl => inferInstanceAs (DecidableEq FnDecl)
  | params => inferInstanceAs (DecidableEq (List Param))
  | param => inferInstanceAs (DecidableEq Param)
  | returnTy => inferInstanceAs (DecidableEq ReturnTy)
  | generics => inferInstanceAs (DecidableEq Generics)
  | whereClause => inferInstanceAs (DecidableEq WhereClause)
  | ty => inferInstanceAs (DecidableEq Ty)
  | tyKind => inferInstanceAs (DecidableEq TyKind)
  | pat => inferInstanceAs (DecidableEq Pat)
  | patKind => inferInstanceAs (DecidableEq PatKind)
  | bindingMode => inferInstanceAs (DecidableEq BindingMode)
  | block => inferInstanceAs (DecidableEq Block)
  | stmts => inferInstanceAs (DecidableEq (List Stmt))
  | stmt => inferInstanceAs (DecidableEq Stmt)
  | stmtKind => inferInstanceAs (DecidableEq StmtKind)
  | expr => inferInstanceAs (DecidableEq Expr)
  | exprKind => inferInstanceAs (DecidableEq ExprKind)
  | macCall => inferInstanceAs (DecidableEq MacCall)
  | lit => inferInstanceAs (DecidableEq Lit)
  | litKind => inferInstanceAs (DecidableEq LitKind)
  | macArgs => inferInstanceAs (DecidableEq MacArgs)
  | delimiter => inferInstanceAs (DecidableEq Delimiter)
  | path => inferInstanceAs (DecidableEq Path)
  | pathSegments => inferInstanceAs (DecidableEq (List PathSegment))
  | pathSegment => inferInstanceAs (DecidableEq PathSegment)
  | genericArgs => inferInstanceAs (DecidableEq GenericArgs)
  | span => inferInstanceAs (DecidableEq Span)
  | modSpans => inferInstanceAs (DecidableEq ModSpans)
  | delSpan => inferInstanceAs (DecidableEq DelSpan)
  | ident => inferInstanceAs (DecidableEq Ident)
  | tokenStream => inferInstanceAs (DecidableEq TokenStream)

end NodeKind

end CrateNotation
