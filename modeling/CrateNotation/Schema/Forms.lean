import CrateNotation.Schema.Form

/-!
# The schema of the notation

For every kind of node, how it is written.  A form gives the fields in the order in which they are
read; in most forms the id comes last, so that a node is numbered after the nodes inside it.

The nodes of a union are told apart by their tags, and each of them has a form of its own or that
of the kind of node which it wraps: a path expression is written as a path.

## Main Definitions

* `NodeKind.shape` — how the nodes of each kind are written
* `NodeKind.table?` — the tags of the kinds that are unions
-/

namespace CrateNotation

/-! ### Fields that many forms share -/

namespace Field

/-- A span, with the dummy where it is not written. -/
@[reducible]
def spanNamed (name : String) : Field := .optional name (.node .span) .dummy

/-- The span of the node. -/
@[reducible]
def span : Field := spanNamed "span"

/-- The attributes of the node, of which none are accepted yet. -/
@[reducible]
def attrs : Field := .optional "attrs" (.nothing "attribute") ()

/-- The kept text of the node. -/
@[reducible]
def tokens : Field := .optional "tokens" (.orNil (.node .tokenStream)) none

/-- A bound of a span. -/
@[reducible]
def bound (name : String) : Field := .optional name (.integer ⟨name, 0, maxIndex⟩) 0

end Field

/-- The range of ids that may be written. -/
def nodeIdRange : IntRange := ⟨"node id", 0, maxIndex⟩

/-- The range of integer literals: those of 128 bits with a sign. -/
def integerLiteralRange : IntRange where
  what := "integer literal"
  lo := -0x80000000000000000000000000000000
  hi := 0x7FFFFFFFFFFFFFFFFFFFFFFFFFFFFFFF

namespace Form

/-! ### Locations and names -/

/-- A span. The empty list stands for the dummy, and a span must not run backwards. -/
def span : Form Span where
  tag := "Span"
  fields := [.bound "lo", .bound "hi", .bound "ctxt"]
  make | (lo, hi, ctxt, ()) => { lo, hi, ctxt }
  blank := some .dummy
  refuse := fun (lo, hi, _, ()) =>
    if lo > hi then some ("span with lo <= hi", s!"lo {lo}, hi {hi}") else none

/-- The spans of a module. -/
def modSpans : Form ModSpans where
  tag := "ModSpans"
  fields := [.spanNamed "inner-span", .spanNamed "inject-use-span"]
  make | (inner, injectUse, ()) => { inner, injectUse }

/-- The spans of a pair of delimiters. -/
def delSpan : Form DelSpan where
  tag := "DelSpan"
  fields := [.spanNamed "open", .spanNamed "close"]
  make | (opening, closing, ()) => { opening, closing }

/-- Kept text, empty where none is written. -/
def tokenStream : Form TokenStream where
  tag := "TokenStream"
  fields := [.optional "source" .text ""]
  make | (source, ()) => { source }

/-- An identifier. -/
def ident : Form Ident where
  tag := "Ident"
  fields := [.required "name" .text, .span]
  make | (name, span, ()) => { name, span }

/-- A list of generic arguments. -/
def genericArgs : Form GenericArgs where
  tag := "GenericArgs"
  fields := [.span]
  make | (span, ()) => { span }

/-- A step of a path. It is numbered, so that the steps of a path are numbered in order. -/
def pathSegment : Form PathSegment where
  tag := "PathSegment"
  fields :=
    [.required "ident" (.node .ident), .optional "args" (.orNil (.node .genericArgs)) none, .id]
  make | (ident, args, id, ()) => { ident, args, id }

/-- A path, without steps where none are written. -/
def path : Form Path where
  tag := "Path"
  fields := [.optional "segments" (.node .pathSegments) [], .span, .tokens]
  make | (segments, span, tokens, ()) => { segments, span, tokens }

/-! ### Visibility -/

/-- Visible from everywhere. -/
def visible : Form Visibility where
  tag := "Public"
  fields := []
  make | () => .visible

/-- Visible as the node around it. -/
def inherited : Form Visibility where
  tag := "Inherited"
  fields := []
  make | () => .inherited

/-- Visible from within a place. -/
def restricted : Form Visibility where
  tag := "Restricted"
  fields :=
    [.required "path" (.node .path), .optional "shorthand" (.word .restriction) .inPath, .span]
  make | (path, shorthand, span, ()) => .restricted path shorthand span

/-! ### Expressions -/

/-- No arguments. -/
def emptyArgs : Form MacArgs where
  tag := "Empty"
  fields := []
  make | () => .empty

/-- Arguments between delimiters, parentheses where none are named. -/
def delimitedArgs : Form MacArgs where
  tag := "Delimited"
  fields :=
    [.optional "dspan" (.node .delSpan) {}, .optional "delim" (.node .delimiter) .paren, .tokens]
  make | (dspan, delim, tokens, ()) => .delimited dspan delim tokens

/-- Arguments behind an equals sign. -/
def eqArgs : Form MacArgs where
  tag := "Eq"
  fields := [.spanNamed "eq-span", .tokens]
  make | (eqSpan, tokens, ()) => .eq eqSpan tokens

/-- A macro call. Where arguments are `nil` or not written, there are none. -/
def macCall : Form MacCall where
  tag := "MacCall"
  fields := [.required "path" (.node .path), .optional "args" (.orNil (.node .macArgs)) none]
  make | (path, args, ()) => { path, args := args.getD .empty }

/-- A string as a literal. -/
def strLit : Form LitKind where
  tag := "Str"
  fields := [.required "value" .text]
  make | (value, ()) => .str value

/-- An integer as a literal. -/
def intLit : Form LitKind where
  tag := "Int"
  fields := [.required "value" (.integer integerLiteralRange)]
  make | (value, ()) => .int value

/-- A literal. -/
def lit : Form Lit where
  tag := "Lit"
  fields := [.required "kind" (.node .litKind), .span]
  make | (kind, span, ()) => { kind, span }

/-- An expression. -/
def expr : Form Expr where
  tag := "Expr"
  fields := [.attrs, .required "kind" (.node .exprKind), .span, .id]
  make | (_, kind, span, id, ()) => { kind, span, id }

/-! ### Statements -/

/-- An expression with a semicolon. The expression may stand without a keyword. -/
def semiStmt : Form StmtKind where
  tag := "Semi"
  fields := [.required "expr" (.node .expr)]
  make | (expr, ()) => .semi expr
  bare := some "expr"

/-- An expression without a semicolon. The expression may stand without a keyword. -/
def exprStmt : Form StmtKind where
  tag := "Expr"
  fields := [.required "expr" (.node .expr)]
  make | (expr, ()) => .expr expr
  bare := some "expr"

/-- An empty statement. -/
def emptyStmt : Form StmtKind where
  tag := "Empty"
  fields := []
  make | () => .empty

/-- A statement. -/
def stmt : Form Stmt where
  tag := "Stmt"
  fields := [.required "kind" (.node .stmtKind), .span, .id]
  make | (kind, span, id, ()) => { kind, span, id }

/-- A block. It is numbered after its statements. -/
def block : Form Block where
  tag := "Block"
  fields :=
    [.optional "stmts" (.node .stmts) [], .optional "rules" (.word .blockRules) .default, .span,
      .tokens, .id]
  make | (stmts, rules, span, tokens, id, ()) => { stmts, rules, span, tokens, id }

/-! ### Types and patterns -/

/-- A type. -/
def ty : Form Ty where
  tag := "Ty"
  fields := [.required "kind" (.node .tyKind), .span, .id]
  make | (kind, span, id, ()) => { kind, span, id }

/-- A way of binding: by value and not mutable where nothing is written. -/
def bindingMode : Form BindingMode where
  tag := "BindingMode"
  fields := [.optional "by-ref" .flag false, .optional "mutability" (.word .mutability) .not]
  make | (byRef, mutability, ()) => { byRef, mutability }

/-- A binding, with a pattern behind it or without. -/
def identPat : Form PatKind where
  tag := "Ident"
  fields :=
    [.optional "binding-mode" (.node .bindingMode) {}, .required "ident" (.node .ident),
      .optional "sub" (.orNil (.node .pat)) none]
  make | (mode, ident, sub, ()) => .ident mode ident sub

/-- A pattern. -/
def pat : Form Pat where
  tag := "Pat"
  fields := [.required "kind" (.node .patKind), .span, .id]
  make | (kind, span, id, ()) => .ofKind id kind span

/-! ### Functions -/

/-- A parameter. Its type is numbered before its pattern. -/
def param : Form Param where
  tag := "Param"
  fields := [.attrs, .required "ty" (.node .ty), .required "pat" (.node .pat), .span, .id]
  make | (_, ty, pat, span, id, ()) => { ty, pat, span, id }

/-- No written return type. -/
def defaultReturn : Form ReturnTy where
  tag := "Default"
  fields := [.span]
  make | (span, ()) => .default span

/-- Parameters and a return type. The parameters are numbered first. -/
def fnDecl : Form FnDecl where
  tag := "FnDecl"
  fields :=
    [.optional "inputs" (.node .params) [], .optional "output" (.node .returnTy) (.default .dummy)]
  make | (inputs, output, ()) => { inputs, output }

/-- Qualifiers of a function. -/
def fnHeader : Form FnHeader where
  tag := "FnHeader"
  fields :=
    [.optional "safety" (.word .safety) .default, .optional "constness" (.word .constness) .notConst,
      .optional "coroutine-kind" (.orNil (.word .coroutineKind)) none,
      .optional "ext" (.orNil .text) none]
  make | (safety, constness, coroutineKind, ext, ()) => { safety, constness, coroutineKind, ext }

/-- A signature. -/
def fnSig : Form FnSig where
  tag := "FnSig"
  fields :=
    [.optional "header" (.node .fnHeader) {}, .optional "decl" (.node .fnDecl) {}, .span]
  make | (header, decl, span, ()) => { header, decl, span }

/-- A where clause. -/
def whereClause : Form WhereClause where
  tag := "WhereClause"
  fields :=
    [.optional "predicates" (.nothing "where predicate") (),
      .optional "has-where-token" .flag false, .span]
  make | (_, hasWhereToken, span, ()) => { hasWhereToken, span }

/-- Generics. -/
def generics : Form Generics where
  tag := "Generics"
  fields :=
    [.optional "params" (.nothing "generic parameter") (),
      .optional "where-clause" (.node .whereClause) {}, .span]
  make | (_, whereClause, span, ()) => { whereClause, span }

/-- A function. Its signature is numbered before its body. -/
def fn : Form Fn where
  tag := "Fn"
  fields :=
    [.optional "defaultness" (.word .defaultness) .final, .required "sig" (.node .fnSig),
      .optional "generics" (.node .generics) {}, .optional "body" (.orNil (.node .block)) none]
  make | (defaultness, sig, generics, body, ()) => { defaultness, sig, generics, body }

/-! ### Items and crates -/

/-- An item. Its visibility is numbered before its kind. -/
def item : Form Item where
  tag := "Item"
  fields :=
    [.attrs, .optional "vis" (.node .visibility) .inherited, .required "ident" (.node .ident),
      .required "kind" (.node .itemKind), .span, .id]
  make | (_, vis, ident, kind, span, id, ()) => { vis, ident, kind, span, id }

/-- A crate. Unlike other nodes it is numbered before its last field is read. -/
def crate : Form Crate where
  tag := "Crate"
  fields :=
    [.attrs, .required "items" (.node .items), .optional "spans" (.node .modSpans) {}, .id,
      .optional "is-placeholder" .flag false]
  make | (_, items, spans, id, isPlaceholder, ()) => { items, spans, id, isPlaceholder }

end Form

/-! ### Unions -/

namespace TagTable

/-- The forms of a visibility. -/
def visibilities : TagTable (Form Visibility) where
  category := "visibility"
  entries := [("Public", .visible), ("Inherited", .inherited), ("Restricted", .restricted)]

/-- The forms of an item. -/
def itemKinds : TagTable (Form ItemKind) where
  category := "item kind"
  entries := [("Fn", Form.fn.map .fn)]

/-- The forms of a return type. -/
def returnTypes : TagTable (Form ReturnTy) where
  category := "return type"
  entries := [("Default", .defaultReturn), ("Ty", Form.ty.map .ty)]

/-- The forms of a type. -/
def tyKinds : TagTable (Form TyKind) where
  category := "type kind"
  entries := [("Path", Form.path.map .path)]

/-- The forms of a pattern. -/
def patKinds : TagTable (Form PatKind) where
  category := "pattern kind"
  entries := [("Ident", .identPat)]

/-- The forms of a statement. -/
def stmtKinds : TagTable (Form StmtKind) where
  category := "statement kind"
  entries := [("Semi", .semiStmt), ("Expr", .exprStmt), ("Empty", .emptyStmt)]

/-- The forms of an expression. -/
def exprKinds : TagTable (Form ExprKind) where
  category := "expression kind"
  entries :=
    [("MacCall", Form.macCall.map .macCall), ("Lit", Form.lit.map .lit),
      ("Path", Form.path.map .path)]

/-- The forms of a literal's value. -/
def litKinds : TagTable (Form LitKind) where
  category := "literal kind"
  entries := [("Str", .strLit), ("Int", .intLit)]

/-- The forms of macro arguments. -/
def macArgs : TagTable (Form MacArgs) where
  category := "macro arguments"
  entries := [("Empty", .emptyArgs), ("Delimited", .delimitedArgs), ("Eq", .eqArgs)]

end TagTable

namespace NodeKind

/-- How the nodes of a kind are written. -/
def shape : (k : NodeKind) → Shape k.Value
  | crate => .form .crate
  | items => .row .item id
  | item => .form .item
  | visibility => .union .visibilities
  | itemKind => .union .itemKinds
  | fn => .form .fn
  | fnSig => .form .fnSig
  | fnHeader => .form .fnHeader
  | fnDecl => .form .fnDecl
  | params => .row .param id
  | param => .form .param
  | returnTy => .union .returnTypes
  | generics => .form .generics
  | whereClause => .form .whereClause
  | ty => .form .ty
  | tyKind => .union .tyKinds
  | pat => .form .pat
  | patKind => .union .patKinds
  | bindingMode => .form .bindingMode
  | block => .form .block
  | stmts => .row .stmt id
  | stmt => .form .stmt
  | stmtKind => .union .stmtKinds
  | expr => .form .expr
  | exprKind => .union .exprKinds
  | macCall => .form .macCall
  | lit => .form .lit
  | litKind => .union .litKinds
  | macArgs => .union .macArgs
  | delimiter => .word .delimiter id
  | path => .form .path
  | pathSegments => .row .pathSegment id
  | pathSegment => .form .pathSegment
  | genericArgs => .form .genericArgs
  | span => .form .span
  | modSpans => .form .modSpans
  | delSpan => .form .delSpan
  | ident => .form .ident
  | tokenStream => .form .tokenStream

/-- The forms of a kind that is a union, by their tags. -/
def table? (k : NodeKind) : Option (TagTable (Form k.Value)) :=
  match k.shape with
  | .union table => some table
  | .form _ | .row .. | .word .. => none

end NodeKind

end CrateNotation
