import CrateNotation.Schema.Forms

/-!
# The details of a node

Nodes of a crate are plain data, and nothing keeps their numbers in bounds.  The *details* of a node
are all that can be out of order in it or in any node inside it: ids, spans, integer literals, and
lists of things that are not accepted yet.  A node is valid if all of its details are.

The tags of unions are details as well, so that a node can be compared with the lists it was written
as.  They are never out of order.

Details are listed in the order in which the fields of nodes are read.  The tag of a union's node
comes first.

## Main Definitions

* `Detail`, `Detail.Valid` — what can be out of order, and when it is not
* `NodeKind.details` — the details of a node of any kind
* `NodeKind.Valid` — nodes with everything in order
* `NodeKind.tags` — the tags of the unions in a node
-/

namespace CrateNotation

/-- What can be out of order in a node. -/
inductive Detail where
  | id (id : NodeId)
  | span (span : Span)
  /-- An integer that must lie in a range. -/
  | integer (range : IntRange) (value : Int)
  /-- So many attributes, generic parameters or predicates, none of which are accepted yet. -/
  | unsupported (count : Nat)
  /-- The tag of the node of a union, if it is known which node that is. -/
  | tag (text : Option String)

namespace Span

/-- A span is within the bounds of a file and does not run backwards. -/
structure Valid (s : Span) : Prop where
  lo_nonneg : 0 ≤ s.lo
  lo_le_hi : s.lo ≤ s.hi
  hi_le : s.hi ≤ maxIndex
  ctxt_nonneg : 0 ≤ s.ctxt
  ctxt_le : s.ctxt ≤ maxIndex

instance (s : Span) : Decidable s.Valid :=
  decidable_of_iff
    (0 ≤ s.lo ∧ s.lo ≤ s.hi ∧ s.hi ≤ maxIndex ∧ 0 ≤ s.ctxt ∧ s.ctxt ≤ maxIndex)
    ⟨fun ⟨h₁, h₂, h₃, h₄, h₅⟩ => ⟨h₁, h₂, h₃, h₄, h₅⟩,
      fun ⟨h₁, h₂, h₃, h₄, h₅⟩ => ⟨h₁, h₂, h₃, h₄, h₅⟩⟩

end Span

namespace Detail

/-- A detail is in order. -/
def Valid : Detail → Prop
  | id i => 0 ≤ i.value ∧ i.value ≤ maxIndex
  | span s => s.Valid
  | integer range value => range.lo ≤ value ∧ value ≤ range.hi
  | unsupported count => count = 0
  | tag _ => True

instance : (d : Detail) → Decidable d.Valid
  | id i => inferInstanceAs (Decidable (0 ≤ i.value ∧ i.value ≤ maxIndex))
  | span s => inferInstanceAs (Decidable s.Valid)
  | integer range value => inferInstanceAs (Decidable (range.lo ≤ value ∧ value ≤ range.hi))
  | unsupported count => inferInstanceAs (Decidable (count = 0))
  | tag _ => inferInstanceAs (Decidable True)

/-- The tag that a detail is, if it is one. -/
def tag? : Detail → Option (Option String)
  | tag text => some text
  | id _ | span _ | integer .. | unsupported _ => none

end Detail

/-! ### Locations and names -/

def Span.details (s : Span) : List Detail :=
  [.span s]

def ModSpans.details (m : ModSpans) : List Detail :=
  [.span m.inner, .span m.injectUse]

def DelSpan.details (d : DelSpan) : List Detail :=
  [.span d.opening, .span d.closing]

def Ident.details (i : Ident) : List Detail :=
  [.span i.span]

def GenericArgs.details (a : GenericArgs) : List Detail :=
  [.span a.span]

def PathSegment.details (s : PathSegment) : List Detail :=
  [s.ident.details, s.args.elim [] GenericArgs.details, [.id s.id]].flatten

def Path.details (p : Path) : List Detail :=
  [p.segments.flatMap PathSegment.details, [.span p.span]].flatten

def Visibility.details (v : Visibility) : List Detail :=
  .tag v.tag :: match v with
    | visible | inherited => []
    | restricted path _ span => [path.details, [.span span]].flatten

/-! ### Expressions, statements and blocks -/

def MacArgs.details (a : MacArgs) : List Detail :=
  .tag a.tag :: match a with
    | empty => []
    | delimited dspan _ _ => dspan.details
    | eq eqSpan _ => [.span eqSpan]

def MacCall.details (c : MacCall) : List Detail :=
  [c.path.details, c.args.details].flatten

def LitKind.details (k : LitKind) : List Detail :=
  .tag k.tag :: match k with
    | str _ => []
    | int value => [.integer integerLiteralRange value]

def Lit.details (l : Lit) : List Detail :=
  [l.kind.details, [.span l.span]].flatten

def ExprKind.details (k : ExprKind) : List Detail :=
  .tag k.tag :: match k with
    | macCall c => c.details
    | lit l => l.details
    | path p => p.details

def Expr.details (e : Expr) : List Detail :=
  [[.unsupported e.attrs.length], e.kind.details, [.span e.span], [.id e.id]].flatten

def StmtKind.details (k : StmtKind) : List Detail :=
  .tag k.tag :: match k with
    | semi e | expr e => e.details
    | empty => []

def Stmt.details (s : Stmt) : List Detail :=
  [s.kind.details, [.span s.span], [.id s.id]].flatten

def Block.details (b : Block) : List Detail :=
  [b.stmts.flatMap Stmt.details, [.span b.span], [.id b.id]].flatten

/-! ### Types, patterns and signatures -/

def TyKind.details (k : TyKind) : List Detail :=
  .tag k.tag :: match k with
    | path p => p.details

def Ty.details (t : Ty) : List Detail :=
  [t.kind.details, [.span t.span], [.id t.id]].flatten

/-- A pattern with a pattern behind it has the details of both. -/
def Pat.details : Pat → List Detail
  | bind id mode ident span =>
    [[.tag (PatKind.ident mode ident none).tag], ident.details, [.span span], [.id id]].flatten
  | bindAt id mode ident sub span =>
    [[.tag (PatKind.ident mode ident (some sub)).tag], ident.details, sub.details, [.span span],
      [.id id]].flatten

def PatKind.details (k : PatKind) : List Detail :=
  .tag k.tag :: match k with
    | .ident _ name sub => [name.details, sub.elim [] Pat.details].flatten

def Param.details (p : Param) : List Detail :=
  [[.unsupported p.attrs.length], p.ty.details, p.pat.details, [.span p.span], [.id p.id]].flatten

def ReturnTy.details (r : ReturnTy) : List Detail :=
  .tag r.tag :: match r with
    | default span => [.span span]
    | ty t => t.details

def FnDecl.details (d : FnDecl) : List Detail :=
  [d.inputs.flatMap Param.details, d.output.details].flatten

def FnSig.details (s : FnSig) : List Detail :=
  [s.decl.details, [.span s.span]].flatten

def WhereClause.details (c : WhereClause) : List Detail :=
  [.unsupported c.predicates.length, .span c.span]

def Generics.details (g : Generics) : List Detail :=
  [[.unsupported g.params.length], g.whereClause.details, [.span g.span]].flatten

/-! ### Items and crates -/

def Fn.details (f : Fn) : List Detail :=
  [f.sig.details, f.generics.details, f.body.elim [] Block.details].flatten

def ItemKind.details (k : ItemKind) : List Detail :=
  .tag k.tag :: match k with
    | fn f => f.details

def Item.details (i : Item) : List Detail :=
  [[.unsupported i.attrs.length], i.vis.details, i.ident.details, i.kind.details, [.span i.span],
    [.id i.id]].flatten

def Crate.details (c : Crate) : List Detail :=
  [[.unsupported c.attrs.length], c.items.flatMap Item.details, c.spans.details, [.id c.id]].flatten

namespace NodeKind

/-- The details of a node, those of the nodes inside it included. -/
def details : (k : NodeKind) → k.Value → List Detail
  | crate => Crate.details
  | items => .flatMap Item.details
  | item => Item.details
  | visibility => Visibility.details
  | itemKind => ItemKind.details
  | fn => Fn.details
  | fnSig => FnSig.details
  | fnDecl => FnDecl.details
  | params => .flatMap Param.details
  | param => Param.details
  | returnTy => ReturnTy.details
  | generics => Generics.details
  | whereClause => WhereClause.details
  | ty => Ty.details
  | tyKind => TyKind.details
  | pat => Pat.details
  | patKind => PatKind.details
  | block => Block.details
  | stmts => .flatMap Stmt.details
  | stmt => Stmt.details
  | stmtKind => StmtKind.details
  | expr => Expr.details
  | exprKind => ExprKind.details
  | macCall => MacCall.details
  | lit => Lit.details
  | litKind => LitKind.details
  | macArgs => MacArgs.details
  | path => Path.details
  | pathSegments => .flatMap PathSegment.details
  | pathSegment => PathSegment.details
  | genericArgs => GenericArgs.details
  | span => Span.details
  | modSpans => ModSpans.details
  | delSpan => DelSpan.details
  | ident => Ident.details
  | fnHeader | bindingMode | delimiter | tokenStream => fun _ => []

/-- Everything in a node is in order: all ids, spans and integer literals are within bounds, no span
runs backwards, and there is nothing that is not accepted yet. -/
def Valid (k : NodeKind) (value : k.Value) : Prop :=
  ∀ d ∈ k.details value, d.Valid

instance (k : NodeKind) (value : k.Value) : Decidable (k.Valid value) :=
  inferInstanceAs (Decidable (∀ d ∈ k.details value, d.Valid))

end NodeKind

/-- The tags among details. -/
def tagsOf (details : List Detail) : List (Option String) :=
  details.filterMap Detail.tag?

/-- The tags of the unions in a node. -/
def NodeKind.tags (k : NodeKind) (value : k.Value) : List (Option String) :=
  tagsOf (k.details value)

/-- A pattern has the details of its kind, then its span and its id. -/
theorem Pat.details_ofKind (id : NodeId) (kind : PatKind) (span : Span) :
    (ofKind id kind span).details = [kind.details, [.span span], [.id id]].flatten := by
  rcases kind with ⟨mode, ident, _ | sub⟩
  · rfl
  · simp [ofKind, details, PatKind.details]

/-- Integer literals are those of 128 bits with a sign. -/
example : integerLiteralRange.lo = -2 ^ 127 ∧ integerLiteralRange.hi = 2 ^ 127 - 1 := by decide

end CrateNotation
