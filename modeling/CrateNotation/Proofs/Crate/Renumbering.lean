import CrateNotation.Proofs.Crate.Outline

/-!
# Nodes with other ids

A node and a row of ids make a node that differs from it in its ids only.  The walk goes through the
numbered nodes in the order of completion and takes the next id of the row for each of them.  What
it makes does not depend on the ids that the node has, so two nodes for which it is the same walk
differ in their ids only.

With the labels of its outline for the row, a node is made into itself.  So it is given by its walk
and the labels of its outline.

## Main Definitions

* `Renumber` — a walk that takes ids from a row
* `NodeKind.renumber` — the walk through a node of any kind
* `Renumbers` — a walk that goes along an outline

## Main Statements

* `NodeKind.renumbers` — the walk through a node goes along its outline
-/

namespace CrateNotation

/-- A walk that takes ids from a row. -/
abbrev Renumber (α : Type) := StateM (List NodeId) α

/-- The next id of the row, and the dummy behind its end. -/
def Renumber.takeId : Renumber NodeId
  | [] => (.dummy, [])
  | id :: ids => (id, ids)

open Renumber

/-! ## Walks -/

def PathSegment.renumber (s : PathSegment) : Renumber PathSegment := do
  return { s with id := ← takeId }

def Path.renumber (p : Path) : Renumber Path := do
  return { p with segments := ← p.segments.mapM PathSegment.renumber }

def Visibility.renumber : Visibility → Renumber Visibility
  | visible => pure visible
  | inherited => pure inherited
  | restricted path shorthand span => do return restricted (← path.renumber) shorthand span

def MacCall.renumber (c : MacCall) : Renumber MacCall := do
  return { c with path := ← c.path.renumber }

def ExprKind.renumber : ExprKind → Renumber ExprKind
  | macCall c => macCall <$> c.renumber
  | lit l => pure (lit l)
  | path p => path <$> p.renumber

def Expr.renumber (e : Expr) : Renumber Expr := do
  let kind ← e.kind.renumber
  return { e with kind, id := ← takeId }

def StmtKind.renumber : StmtKind → Renumber StmtKind
  | semi e => semi <$> e.renumber
  | expr e => expr <$> e.renumber
  | empty => pure empty

def Stmt.renumber (s : Stmt) : Renumber Stmt := do
  let kind ← s.kind.renumber
  return { s with kind, id := ← takeId }

def Block.renumber (b : Block) : Renumber Block := do
  let stmts ← b.stmts.mapM Stmt.renumber
  return { b with stmts, id := ← takeId }

def TyKind.renumber : TyKind → Renumber TyKind
  | path p => path <$> p.renumber

def Ty.renumber (t : Ty) : Renumber Ty := do
  let kind ← t.kind.renumber
  return { t with kind, id := ← takeId }

def Pat.renumber : Pat → Renumber Pat
  | bind _ mode ident span => do return bind (← takeId) mode ident span
  | bindAt _ mode ident sub span => do
    let sub ← sub.renumber
    return bindAt (← takeId) mode ident sub span

def PatKind.renumber : PatKind → Renumber PatKind
  | ident mode name sub => ident mode name <$> sub.mapM Pat.renumber

def Param.renumber (p : Param) : Renumber Param := do
  let ty ← p.ty.renumber
  let pat ← p.pat.renumber
  return { p with ty, pat, id := ← takeId }

def ReturnTy.renumber : ReturnTy → Renumber ReturnTy
  | default span => pure (default span)
  | ty t => ty <$> t.renumber

def FnDecl.renumber (d : FnDecl) : Renumber FnDecl := do
  let inputs ← d.inputs.mapM Param.renumber
  return { d with inputs, output := ← d.output.renumber }

def FnSig.renumber (s : FnSig) : Renumber FnSig := do
  return { s with decl := ← s.decl.renumber }

def Fn.renumber (f : Fn) : Renumber Fn := do
  let sig ← f.sig.renumber
  return { f with sig, body := ← f.body.mapM Block.renumber }

def ItemKind.renumber : ItemKind → Renumber ItemKind
  | fn f => fn <$> f.renumber

def Item.renumber (i : Item) : Renumber Item := do
  let vis ← i.vis.renumber
  let kind ← i.kind.renumber
  return { i with vis, kind, id := ← takeId }

def Crate.renumber (c : Crate) : Renumber Crate := do
  let items ← c.items.mapM Item.renumber
  return { c with items, id := ← takeId }

/-- The node with other ids, taken from a row in the order of completion. -/
def NodeKind.renumber : (k : NodeKind) → k.Value → Renumber k.Value
  | crate => Crate.renumber
  | items => List.mapM Item.renumber
  | item => Item.renumber
  | visibility => Visibility.renumber
  | itemKind => ItemKind.renumber
  | fn => Fn.renumber
  | fnSig => FnSig.renumber
  | fnDecl => FnDecl.renumber
  | params => List.mapM Param.renumber
  | param => Param.renumber
  | returnTy => ReturnTy.renumber
  | ty => Ty.renumber
  | tyKind => TyKind.renumber
  | pat => Pat.renumber
  | patKind => PatKind.renumber
  | block => Block.renumber
  | stmts => List.mapM Stmt.renumber
  | stmt => Stmt.renumber
  | stmtKind => StmtKind.renumber
  | expr => Expr.renumber
  | exprKind => ExprKind.renumber
  | macCall => MacCall.renumber
  | path => Path.renumber
  | pathSegments => List.mapM PathSegment.renumber
  | pathSegment => PathSegment.renumber
  | fnHeader | generics | whereClause | bindingMode | lit | litKind | macArgs | delimiter
  | genericArgs | span | modSpans | delSpan | ident | tokenStream => pure

/-! ## Walks along an outline -/

/-- A walk makes a node into itself if the row begins with the labels of its outline, and it takes no
more than these. -/
def Renumbers {α : Type} (renumber : α → Renumber α) (outline : α → Forest NodeId) : Prop :=
  ∀ a rest, (renumber a).run ((outline a).labels ++ rest) = (a, rest)

section Renumbers

variable {α β : Type} {renumber : α → Renumber α} {outline : α → Forest NodeId}

/-- A walk that is followed by something else leaves the rest of the row to it. -/
theorem Renumbers.run_bind (h : Renumbers renumber outline) (a : α) (f : α → Renumber β)
    (rest : List NodeId) :
    (renumber a >>= f).run ((outline a).labels ++ rest) = (f a).run rest := by
  rw [StateT.run_bind, h]
  rfl

theorem Renumbers.run_map (h : Renumbers renumber outline) (a : α) (f : α → β)
    (rest : List NodeId) :
    (f <$> renumber a).run ((outline a).labels ++ rest) = (f a, rest) := by
  rw [StateT.run_map, h]
  rfl

/-- A numbered node takes its id when the walk through what is inside it has ended. -/
theorem Renumbers.run_node (h : Renumbers renumber outline) (a : α) (id : NodeId)
    (f : α → NodeId → Renumber β) (rest : List NodeId) :
    (renumber a >>= fun a => takeId >>= f a).run ((Forest.node (outline a) id).labels ++ rest) =
      (f a id).run rest := by
  rw [Forest.node, Forest.labels, Forest.labels_nil, List.append_assoc, h.run_bind]
  rfl

/-- A node in which nothing is numbered is left as it is. -/
theorem renumbers_pure : Renumbers (pure : α → Renumber α) fun _ => .nil :=
  fun _ _ => rfl

/-- The nodes of a row are walked through one after the other. -/
theorem Renumbers.mapM (h : Renumbers renumber outline) :
    Renumbers (List.mapM renumber) (Forest.flatMap outline) := by
  intro as
  induction as with
  | nil => exact fun _ => rfl
  | cons a as ih =>
    intro rest
    rw [List.mapM_cons, Forest.flatMap_cons, Forest.labels_append, List.append_assoc, h.run_bind,
      StateT.run_bind, ih]
    rfl

/-- So is a node that may be missing. -/
theorem Renumbers.option (h : Renumbers renumber outline) :
    Renumbers (Option.mapM renumber) fun a => a.elim .nil outline := by
  intro a rest
  cases a with
  | none => rfl
  | some a => exact h.run_map a some rest

end Renumbers

theorem PathSegment.renumbers : Renumbers renumber outline :=
  fun _ _ => rfl

theorem Path.renumbers : Renumbers renumber outline :=
  fun p rest => PathSegment.renumbers.mapM.run_bind p.segments _ rest

theorem Visibility.renumbers : Renumbers renumber outline
  | visible, _ => rfl
  | inherited, _ => rfl
  | restricted path _ _, rest => Path.renumbers.run_bind path _ rest

theorem MacCall.renumbers : Renumbers renumber outline :=
  fun c rest => Path.renumbers.run_bind c.path _ rest

theorem ExprKind.renumbers : Renumbers renumber outline
  | macCall c, rest => MacCall.renumbers.run_map c macCall rest
  | lit _, _ => rfl
  | path p, rest => Path.renumbers.run_map p path rest

theorem Expr.renumbers : Renumbers renumber outline :=
  fun e rest => ExprKind.renumbers.run_node e.kind e.id _ rest

theorem StmtKind.renumbers : Renumbers renumber outline
  | semi e, rest => Expr.renumbers.run_map e semi rest
  | expr e, rest => Expr.renumbers.run_map e expr rest
  | empty, _ => rfl

theorem Stmt.renumbers : Renumbers renumber outline :=
  fun s rest => StmtKind.renumbers.run_node s.kind s.id _ rest

theorem Block.renumbers : Renumbers renumber outline :=
  fun b rest => Stmt.renumbers.mapM.run_node b.stmts b.id _ rest

theorem TyKind.renumbers : Renumbers renumber outline
  | path p, rest => Path.renumbers.run_map p path rest

theorem Ty.renumbers : Renumbers renumber outline :=
  fun t rest => TyKind.renumbers.run_node t.kind t.id _ rest

theorem Pat.renumbers : Renumbers renumber outline := by
  intro p
  induction p with
  | bind id mode ident span => exact fun _ => rfl
  | bindAt id mode ident sub span ih =>
    intro rest
    rw [outline, Forest.node, Forest.labels, Forest.labels_nil, List.append_assoc, renumber,
      StateT.run_bind, ih]
    rfl

theorem PatKind.renumbers : Renumbers renumber outline
  | ident mode name sub, rest => Pat.renumbers.option.run_map sub (ident mode name) rest

theorem Param.renumbers : Renumbers renumber outline := by
  intro p rest
  rw [outline, Forest.node, Forest.labels, Forest.labels_append, Forest.labels_nil,
    List.append_assoc, List.append_assoc, renumber, Ty.renumbers.run_bind, Pat.renumbers.run_bind]
  rfl

theorem ReturnTy.renumbers : Renumbers renumber outline
  | default _, _ => rfl
  | ty t, rest => Ty.renumbers.run_map t ty rest

theorem FnDecl.renumbers : Renumbers renumber outline := by
  intro d rest
  rw [outline, Forest.labels_append, List.append_assoc, renumber, Param.renumbers.mapM.run_bind,
    ReturnTy.renumbers.run_bind]
  rfl

theorem FnSig.renumbers : Renumbers renumber outline :=
  fun s rest => FnDecl.renumbers.run_bind s.decl _ rest

theorem Fn.renumbers : Renumbers renumber outline := by
  intro f rest
  rw [outline, Forest.labels_append, List.append_assoc, renumber, FnSig.renumbers.run_bind,
    Block.renumbers.option.run_bind]
  rfl

theorem ItemKind.renumbers : Renumbers renumber outline
  | fn f, rest => Fn.renumbers.run_map f fn rest

theorem Item.renumbers : Renumbers renumber outline := by
  intro i rest
  rw [outline, Forest.node, Forest.labels, Forest.labels_append, Forest.labels_nil,
    List.append_assoc, List.append_assoc, renumber, Visibility.renumbers.run_bind,
    ItemKind.renumbers.run_bind]
  rfl

theorem Crate.renumbers : Renumbers renumber outline :=
  fun c rest => Item.renumbers.mapM.run_node c.items c.id _ rest

/-- The walk through a node goes along its outline. -/
theorem NodeKind.renumbers : (k : NodeKind) → Renumbers k.renumber k.outline
  | crate => Crate.renumbers
  | items => Item.renumbers.mapM
  | item => Item.renumbers
  | visibility => Visibility.renumbers
  | itemKind => ItemKind.renumbers
  | fn => Fn.renumbers
  | fnSig => FnSig.renumbers
  | fnDecl => FnDecl.renumbers
  | params => Param.renumbers.mapM
  | param => Param.renumbers
  | returnTy => ReturnTy.renumbers
  | ty => Ty.renumbers
  | tyKind => TyKind.renumbers
  | pat => Pat.renumbers
  | patKind => PatKind.renumbers
  | block => Block.renumbers
  | stmts => Stmt.renumbers.mapM
  | stmt => Stmt.renumbers
  | stmtKind => StmtKind.renumbers
  | expr => Expr.renumbers
  | exprKind => ExprKind.renumbers
  | macCall => MacCall.renumbers
  | path => Path.renumbers
  | pathSegments => PathSegment.renumbers.mapM
  | pathSegment => PathSegment.renumbers
  | fnHeader | generics | whereClause | bindingMode | lit | litKind | macArgs | delimiter
  | genericArgs | span | modSpans | delSpan | ident | tokenStream => renumbers_pure

end CrateNotation
