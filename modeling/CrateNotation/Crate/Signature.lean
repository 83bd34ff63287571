import CrateNotation.Crate.Code

/-!
# Types, patterns and function signatures

A type is a path.  A pattern binds an identifier, and may match a further pattern against the same
value.  A signature holds the qualifiers of a function, its parameters and what it returns;
generics stand beside it.

## Main Definitions

* `Ty`, `TyKind` — types
* `Pat`, `PatKind`, `BindingMode` — patterns
* `Param`, `ReturnTy`, `FnDecl`, `FnHeader`, `FnSig` — signatures
* `Generics`, `WhereClause` — generics

## Design Notes

A pattern inside a pattern makes the type of patterns recursive.  `Pat` has one constructor for a
binding that stands alone and one for a binding with a pattern behind it, and so holds patterns
directly; `PatKind` is the view of a pattern without its id and span, and `Pat.ofKind` puts the
three together.
-/

namespace CrateNotation

/-- Whether a binding may be assigned to. -/
inductive Mutability where
  | mutable
  | not
deriving DecidableEq

namespace Mutability

/-- Every mutability, in the order in which messages list them. -/
def all : List Mutability := [mutable, not]

/-- The word for a mutability. -/
def text : Mutability → String
  | mutable => "Mut"
  | not => "Not"

end Mutability

/-- How a pattern binds its identifier. -/
structure BindingMode where
  byRef : Bool := false
  mutability : Mutability := .not
deriving DecidableEq

/-- What a type is. -/
inductive TyKind where
  | path (path : Path)
deriving DecidableEq

/-- The tag that a type's kind is written with. -/
def TyKind.tag : TyKind → String
  | path _ => "Path"

/-- A type. -/
structure Ty where
  id : NodeId
  kind : TyKind
  span : Span := .dummy
deriving DecidableEq

/-- A pattern. -/
inductive Pat where
  /-- A binding. -/
  | bind (id : NodeId) (mode : BindingMode) (ident : Ident) (span : Span)
  /-- A binding of a value that must match `sub` as well. -/
  | bindAt (id : NodeId) (mode : BindingMode) (ident : Ident) (sub : Pat) (span : Span)
deriving DecidableEq

/-- What a pattern is. -/
inductive PatKind where
  | ident (mode : BindingMode) (ident : Ident) (sub : Option Pat)
deriving DecidableEq

/-- The tag that a pattern's kind is written with. -/
def PatKind.tag : PatKind → String
  | ident .. => "Ident"

namespace Pat

/-- The pattern of a given kind. -/
def ofKind (id : NodeId) (kind : PatKind) (span : Span) : Pat :=
  match kind with
  | .ident mode ident none => bind id mode ident span
  | .ident mode ident (some sub) => bindAt id mode ident sub span

/-- The id of a pattern. -/
def id : Pat → NodeId
  | bind id .. | bindAt id .. => id

/-- What a pattern is. -/
def kind : Pat → PatKind
  | bind _ mode ident _ => .ident mode ident none
  | bindAt _ mode ident sub _ => .ident mode ident (some sub)

/-- The span of a pattern. -/
def span : Pat → Span
  | bind _ _ _ span | bindAt _ _ _ _ span => span

/-- A pattern is given by its id, its kind and its span. -/
@[simp]
theorem ofKind_id_kind_span (p : Pat) : ofKind p.id p.kind p.span = p := by
  cases p <;> rfl

@[simp]
theorem id_ofKind (id : NodeId) (kind : PatKind) (span : Span) : (ofKind id kind span).id = id := by
  rcases kind with ⟨_, _, _ | _⟩ <;> rfl

@[simp]
theorem kind_ofKind (id : NodeId) (kind : PatKind) (span : Span) :
    (ofKind id kind span).kind = kind := by
  rcases kind with ⟨_, _, _ | _⟩ <;> rfl

@[simp]
theorem span_ofKind (id : NodeId) (kind : PatKind) (span : Span) :
    (ofKind id kind span).span = span := by
  rcases kind with ⟨_, _, _ | _⟩ <;> rfl

end Pat

/-- A parameter of a function. -/
structure Param where
  ty : Ty
  pat : Pat
  id : NodeId
  span : Span := .dummy
  attrs : List Attribute := []
deriving DecidableEq

/-- What a function returns. -/
inductive ReturnTy where
  /-- Nothing is written; the span is where it would be. -/
  | default (span : Span)
  | ty (ty : Ty)
deriving DecidableEq

/-- The tag that a return type is written with. -/
def ReturnTy.tag : ReturnTy → String
  | default _ => "Default"
  | ty _ => "Ty"

/-- The parameters of a function and what it returns. -/
structure FnDecl where
  inputs : List Param := []
  output : ReturnTy := .default .dummy
deriving DecidableEq

/-- Whether a function is safe to call. -/
inductive Safety where
  | safe
  | notSafe
  | default
deriving DecidableEq

namespace Safety

/-- Every safety, in the order in which messages list them. -/
def all : List Safety := [safe, notSafe, default]

/-- The word for a safety. -/
def text : Safety → String
  | safe => "Safe"
  | notSafe => "Unsafe"
  | default => "Default"

end Safety

/-- Whether a function can be evaluated at compile time. -/
inductive Constness where
  | const
  | notConst
deriving DecidableEq

namespace Constness

/-- Every constness, in the order in which messages list them. -/
def all : List Constness := [const, notConst]

/-- The word for a constness. -/
def text : Constness → String
  | const => "Const"
  | notConst => "NotConst"

end Constness

/-- The kind of coroutine that a function is. -/
inductive CoroutineKind where
  | async
  | gen
deriving DecidableEq

namespace CoroutineKind

/-- Every kind of coroutine, in the order in which messages list them. -/
def all : List CoroutineKind := [async, gen]

/-- The word for a kind of coroutine. -/
def text : CoroutineKind → String
  | async => "Async"
  | gen => "Gen"

end CoroutineKind

/-- The qualifiers of a function. -/
structure FnHeader where
  safety : Safety := .default
  coroutineKind : Option CoroutineKind := none
  constness : Constness := .notConst
  /-- The name of the calling convention, where one is given. -/
  ext : Option String := none
deriving DecidableEq

/-- The signature of a function. -/
structure FnSig where
  header : FnHeader := {}
  decl : FnDecl := {}
  span : Span := .dummy
deriving DecidableEq

/-- A where clause. -/
structure WhereClause where
  hasWhereToken : Bool := false
  predicates : List WherePredicate := []
  span : Span := .dummy
deriving DecidableEq

/-- The generics of a function. -/
structure Generics where
  params : List GenericParam := []
  whereClause : WhereClause := {}
  span : Span := .dummy
deriving DecidableEq

end CrateNotation
