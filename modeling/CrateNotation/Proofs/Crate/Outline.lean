import CrateNotation.Proofs.Crate.Forest
import CrateNotation.Schema.Kind

/-!
# The numbered nodes of a crate

Crates, items, blocks, statements, expressions, types, patterns, parameters and path segments have
ids.  The *outline* of a node is the forest of these nodes in it, each with its id for a label.
Nodes of other kinds have no id of their own, but may have numbered nodes inside.

Where the order of the parts of a node is not that of a text, it is fixed here: the visibility of
an item before its kind, the signature of a function before its body, the parameters before what is
returned, the type of a parameter before its pattern.

## Main Definitions

* `NodeKind.outline` — the numbered nodes in a node of any kind
-/

namespace CrateNotation

/-! ### Paths and visibility -/

def PathSegment.outline (s : PathSegment) : Forest NodeId :=
  .node .nil s.id

def Path.outline (p : Path) : Forest NodeId :=
  .flatMap PathSegment.outline p.segments

def Visibility.outline : Visibility → Forest NodeId
  | visible | inherited => .nil
  | restricted path _ _ => path.outline

/-! ### Expressions, statements and blocks -/

def MacCall.outline (c : MacCall) : Forest NodeId :=
  c.path.outline

def ExprKind.outline : ExprKind → Forest NodeId
  | macCall c => c.outline
  | lit _ => .nil
  | path p => p.outline

def Expr.outline (e : Expr) : Forest NodeId :=
  .node e.kind.outline e.id

def StmtKind.outline : StmtKind → Forest NodeId
  | semi e | expr e => e.outline
  | empty => .nil

def Stmt.outline (s : Stmt) : Forest NodeId :=
  .node s.kind.outline s.id

def Block.outline (b : Block) : Forest NodeId :=
  .node (.flatMap Stmt.outline b.stmts) b.id

/-! ### Types, patterns and signatures -/

def TyKind.outline : TyKind → Forest NodeId
  | path p => p.outline

def Ty.outline (t : Ty) : Forest NodeId :=
  .node t.kind.outline t.id

def Pat.outline : Pat → Forest NodeId
  | bind id .. => .node .nil id
  | bindAt id _ _ sub _ => .node sub.outline id

def PatKind.outline : PatKind → Forest NodeId
  | ident _ _ sub => sub.elim .nil Pat.outline

def Param.outline (p : Param) : Forest NodeId :=
  .node (p.ty.outline ++ p.pat.outline) p.id

def ReturnTy.outline : ReturnTy → Forest NodeId
  | default _ => .nil
  | ty t => t.outline

def FnDecl.outline (d : FnDecl) : Forest NodeId :=
  .flatMap Param.outline d.inputs ++ d.output.outline

def FnSig.outline (s : FnSig) : Forest NodeId :=
  s.decl.outline

/-! ### Items and crates -/

def Fn.outline (f : Fn) : Forest NodeId :=
  f.sig.outline ++ f.body.elim .nil Block.outline

def ItemKind.outline : ItemKind → Forest NodeId
  | fn f => f.outline

def Item.outline (i : Item) : Forest NodeId :=
  .node (i.vis.outline ++ i.kind.outline) i.id

def Crate.outline (c : Crate) : Forest NodeId :=
  .node (.flatMap Item.outline c.items) c.id

/-- The numbered nodes in a node, inside each other and beside each other as they are completed. -/
def NodeKind.outline : (k : NodeKind) → k.Value → Forest NodeId
  | crate => Crate.outline
  | items => .flatMap Item.outline
  | item => Item.outline
  | visibility => Visibility.outline
  | itemKind => ItemKind.outline
  | fn => Fn.outline
  | fnSig => FnSig.outline
  | fnDecl => FnDecl.outline
  | params => .flatMap Param.outline
  | param => Param.outline
  | returnTy => ReturnTy.outline
  | ty => Ty.outline
  | tyKind => TyKind.outline
  | pat => Pat.outline
  | patKind => PatKind.outline
  | block => Block.outline
  | stmts => .flatMap Stmt.outline
  | stmt => Stmt.outline
  | stmtKind => StmtKind.outline
  | expr => Expr.outline
  | exprKind => ExprKind.outline
  | macCall => MacCall.outline
  | path => Path.outline
  | pathSegments => .flatMap PathSegment.outline
  | pathSegment => PathSegment.outline
  | fnHeader | generics | whereClause | bindingMode | lit | litKind | macArgs | delimiter
  | genericArgs | span | modSpans | delSpan | ident | tokenStream => fun _ => .nil

/-- Whether nodes of a kind have no numbered nodes in them. -/
def NodeKind.isPlain : NodeKind → Bool
  | fnHeader | generics | whereClause | bindingMode | lit | litKind | macArgs | delimiter
  | genericArgs | span | modSpans | delSpan | ident | tokenStream => true
  | _ => false

theorem NodeKind.outline_of_isPlain {k : NodeKind} (h : k.isPlain = true) (value : k.Value) :
    k.outline value = .nil := by
  cases k <;> first | rfl | cases h

/-- A pattern is numbered after what its kind holds. -/
theorem Pat.outline_ofKind (id : NodeId) (kind : PatKind) (span : Span) :
    (ofKind id kind span).outline = .node kind.outline id := by
  rcases kind with ⟨mode, ident, _ | sub⟩
  · rfl
  · rfl

end CrateNotation
