import CrateNotation.Proofs.Schema.Sound

/-!
# Forms that make every valid node

A form makes nodes of the values of its fields.  To write a node one goes the other way: there must
be values that the form makes just this node of, that are in order, and that it does not refuse.

There are such values for every valid node of every kind.  They are mostly the parts of the node.
Where a node has a list of things that are not accepted yet, the list is empty in a valid node, as
it is in every node that is read.  A macro call without arguments is made of empty arguments, which
may be written just as well as left out.

The nodes among the values are smaller than the node, so that they can be written first.

## Main Definitions

* `NodeKind.size` — the size of a node
* `Form.Makes`, `Shape.Makes` — a node is made of smaller ones, all in order

## Main Statements

* `NodeKind.makes_of_valid` — every valid node is made by the shape of its kind
-/

namespace CrateNotation

/-! ## Sizes -/

/-- The size of a node, which is greater than those of the nodes inside it. -/
@[simp]
noncomputable def NodeKind.size : (k : NodeKind) → k.Value → Nat
  | crate, v | items, v | item, v | visibility, v | itemKind, v | fn, v | fnSig, v | fnHeader, v
  | fnDecl, v | params, v | param, v | returnTy, v | generics, v | whereClause, v | ty, v
  | tyKind, v | pat, v | patKind, v | bindingMode, v | block, v | stmts, v | stmt, v | stmtKind, v
  | expr, v | exprKind, v | macCall, v | lit, v | litKind, v | macArgs, v | delimiter, v | path, v
  | pathSegments, v | pathSegment, v | genericArgs, v | span, v | modSpans, v | delSpan, v
  | ident, v | tokenStream, v => sizeOf v

/-- The node in a value, if there is one, is smaller than `n`. -/
@[simp]
def Content.Below (n : Nat) : (c : Content) → c.Value → Prop
  | node k, value => k.size value < n
  | orNil c, value => ∀ a ∈ value, c.Below n a
  | text, _ | flag, _ | word _, _ | integer _, _ | nothing _, _ => True

/-- The node in the value of a field is smaller than `n`. -/
@[simp]
def Field.Below (n : Nat) : (f : Field) → f.Value → Prop
  | required _ content, value | optional _ content _, value => content.Below n value
  | id, _ => True

/-- The nodes in the values of fields are smaller than `n`. -/
@[simp]
def Values.Below (n : Nat) : (fs : List Field) → Values fs → Prop
  | [], _ => True
  | f :: fs, (value, values) => f.Below n value ∧ Below n fs values

theorem Content.Below.mono {m n : Nat} (hmn : m ≤ n) {c : Content} {value : c.Value}
    (h : c.Below m value) : c.Below n value := by
  induction c with
  | node k => exact Nat.lt_of_lt_of_le h hmn
  | orNil c ih => exact fun a ha => ih (h a ha)
  | text | flag | word v | integer range | nothing what => trivial

theorem Values.Below.mono {m n : Nat} (hmn : m ≤ n) {fs : List Field} {values : Values fs}
    (h : Values.Below m fs values) : Values.Below n fs values := by
  induction fs with
  | nil => trivial
  | cons f fs ih =>
    refine ⟨?_, ih h.2⟩
    cases f with
    | required name content => exact Content.Below.mono hmn h.1
    | optional name content absent => exact Content.Below.mono hmn h.1
    | id => trivial

/-! ## Making a given node -/

/-- A form makes a node of values that are in order, with nodes smaller than `n` among them. -/
def Form.Makes {α : Type} (form : Form α) (n : Nat) (a : α) : Prop :=
  ∃ values, form.make values = a ∧ form.refuse values = none ∧
    (∀ d ∈ Values.details form.fields values, d.Valid) ∧ Values.Below n form.fields values

/-- A node is made in one of the forms of a shape, or of smaller nodes in a row, or of a word. -/
def Shape.Makes {α : Type} (n : Nat) (a : α) : Shape α → Prop
  | form f => f.Makes n a
  | union table => ∃ entry ∈ table.entries, entry.2.Makes n a
  | row k make => ∃ nodes, make nodes = a ∧ ∀ node ∈ nodes, k.Valid node ∧ k.size node < n
  | word _ make => ∃ w, make w = a

/-- A node that is wrapped as one of a union is made of the same values. -/
theorem Form.Makes.variant {α β : Type} {form : Form α} {m n : Nat} {a : α} (h : form.Makes m a)
    (hmn : m ≤ n) (f : α → β) : (form.map f).Makes n (f a) := by
  obtain ⟨values, rfl, haccepted, hvalid, hbelow⟩ := h
  exact ⟨values, rfl, haccepted, hvalid, hbelow.mono hmn⟩

/-- What is not accepted yet is not there in a valid node. -/
theorem Detail.eq_nil_of_valid {α : Type} {as : List α}
    (h : (unsupported as.length).Valid) : as = [] :=
  List.length_eq_zero_iff.1 h

/-! ## The schema -/

namespace Form

/-! ### Locations and names -/

/-- A valid span does not run backwards, so it is not refused. -/
theorem makes_span {s : Span} (h : NodeKind.span.Valid s) : span.Makes (sizeOf s) s := by
  obtain ⟨lo, hi, ctxt⟩ := s
  obtain ⟨hlo, hle, hhi, hctxt, hctxt'⟩ : (Span.mk lo hi ctxt).Valid := h _ List.mem_cons_self
  have hbounds : ∀ d ∈ [Detail.integer ⟨"lo", 0, maxIndex⟩ lo, .integer ⟨"hi", 0, maxIndex⟩ hi,
      .integer ⟨"ctxt", 0, maxIndex⟩ ctxt], d.Valid :=
    List.forall_mem_cons.2 ⟨⟨hlo, Int.le_trans hle hhi⟩, List.forall_mem_cons.2
      ⟨⟨Int.le_trans hlo hle, hhi⟩, List.forall_mem_singleton.2 ⟨hctxt, hctxt'⟩⟩⟩
  refine ⟨(lo, hi, ctxt, ()), rfl, if_neg (Int.not_lt.2 hle), hbounds, ?_⟩
  simp [span]

theorem makes_modSpans {m : ModSpans} (h : NodeKind.modSpans.Valid m) :
    modSpans.Makes (sizeOf m) m := by
  obtain ⟨inner, injectUse⟩ := m
  refine ⟨(inner, injectUse, ()), rfl, rfl, h, ?_⟩
  simp [modSpans]
  omega

theorem makes_delSpan {d : DelSpan} (h : NodeKind.delSpan.Valid d) :
    delSpan.Makes (sizeOf d) d := by
  obtain ⟨opening, closing⟩ := d
  refine ⟨(opening, closing, ()), rfl, rfl, h, ?_⟩
  simp [delSpan]
  omega

theorem makes_tokenStream {s : TokenStream} (h : NodeKind.tokenStream.Valid s) :
    tokenStream.Makes (sizeOf s) s := by
  obtain ⟨source⟩ := s
  refine ⟨(source, ()), rfl, rfl, h, ?_⟩
  simp [tokenStream]

theorem makes_ident {i : Ident} (h : NodeKind.ident.Valid i) : ident.Makes (sizeOf i) i := by
  obtain ⟨name, span⟩ := i
  refine ⟨(name, span, ()), rfl, rfl, h, trivial, ?_, trivial⟩
  show sizeOf span < 1 + sizeOf name + sizeOf span
  omega

theorem makes_genericArgs {a : GenericArgs} (h : NodeKind.genericArgs.Valid a) :
    genericArgs.Makes (sizeOf a) a := by
  obtain ⟨span⟩ := a
  refine ⟨(span, ()), rfl, rfl, h, ?_⟩
  simp [genericArgs]

theorem makes_pathSegment {s : PathSegment} (h : NodeKind.pathSegment.Valid s) :
    pathSegment.Makes (sizeOf s) s := by
  obtain ⟨ident, id, args⟩ := s
  refine ⟨(ident, args, id, ()), rfl, rfl, h, ?_⟩
  cases args <;> simp [pathSegment] <;> omega

theorem makes_path {p : Path} (h : NodeKind.path.Valid p) : path.Makes (sizeOf p) p := by
  obtain ⟨span, segments, tokens⟩ := p
  refine ⟨(segments, span, tokens, ()), rfl, rfl, ?_, ?_⟩
  · cases tokens <;> exact h
  · cases tokens <;> simp [path] <;> omega

/-! ### Expressions, statements and blocks -/

/-- Arguments are written even if there are none. -/
theorem makes_macCall {c : MacCall} (h : NodeKind.macCall.Valid c) :
    macCall.Makes (sizeOf c) c := by
  obtain ⟨path, args⟩ := c
  refine ⟨(path, some args, ()), rfl, rfl, h, ?_⟩
  simp [macCall]
  omega

theorem makes_lit {l : Lit} (h : NodeKind.lit.Valid l) : lit.Makes (sizeOf l) l := by
  obtain ⟨kind, span⟩ := l
  refine ⟨(kind, span, ()), rfl, rfl, h, ?_⟩
  simp [lit]
  omega

theorem makes_expr {e : Expr} (h : NodeKind.expr.Valid e) : expr.Makes (sizeOf e) e := by
  obtain ⟨id, kind, span, attrs⟩ := e
  obtain rfl := Detail.eq_nil_of_valid (h _ List.mem_cons_self)
  refine ⟨((), kind, span, id, ()), rfl, rfl, h, ?_⟩
  simp [expr]
  omega

theorem makes_stmt {s : Stmt} (h : NodeKind.stmt.Valid s) : stmt.Makes (sizeOf s) s := by
  obtain ⟨id, kind, span⟩ := s
  refine ⟨(kind, span, id, ()), rfl, rfl, h, ?_⟩
  simp [stmt]
  omega

theorem makes_block {b : Block} (h : NodeKind.block.Valid b) : block.Makes (sizeOf b) b := by
  obtain ⟨stmts, id, rules, span, tokens⟩ := b
  refine ⟨(stmts, rules, span, tokens, id, ()), rfl, rfl, ?_, ?_⟩
  · cases tokens <;> exact h
  · cases tokens <;> simp [block] <;> omega

/-! ### Types, patterns and signatures -/

theorem makes_ty {t : Ty} (h : NodeKind.ty.Valid t) : ty.Makes (sizeOf t) t := by
  obtain ⟨id, kind, span⟩ := t
  refine ⟨(kind, span, id, ()), rfl, rfl, h, ?_⟩
  simp [ty]
  omega

theorem makes_bindingMode {m : BindingMode} (h : NodeKind.bindingMode.Valid m) :
    bindingMode.Makes (sizeOf m) m := by
  obtain ⟨byRef, mutability⟩ := m
  refine ⟨(byRef, mutability, ()), rfl, rfl, h, ?_⟩
  simp [bindingMode]

/-- A pattern is made of its kind, its span and its id. -/
theorem makes_pat {p : Pat} (h : NodeKind.pat.Valid p) : pat.Makes (sizeOf p) p := by
  refine ⟨(p.kind, p.span, p.id, ()), p.ofKind_id_kind_span, rfl, ?_, ?_⟩
  · intro d hd
    apply h d
    show d ∈ p.details
    rw [← p.ofKind_id_kind_span, Pat.details_ofKind]
    exact hd
  · -- The kind alone is smaller, because the id and the span are not nothing.
    have hspan : 1 ≤ sizeOf p.span := by
      cases p.span
      simp
      omega
    have hid : 1 ≤ sizeOf p.id := by
      cases p.id
      simp
    cases p <;> simp [pat, Pat.kind, Pat.span, Pat.id] at hspan hid ⊢ <;> omega

theorem makes_param {p : Param} (h : NodeKind.param.Valid p) : param.Makes (sizeOf p) p := by
  obtain ⟨ty, pat, id, span, attrs⟩ := p
  obtain rfl := Detail.eq_nil_of_valid (h _ List.mem_cons_self)
  refine ⟨((), ty, pat, span, id, ()), rfl, rfl, h, ?_⟩
  simp [param]
  omega

theorem makes_fnDecl {d : FnDecl} (h : NodeKind.fnDecl.Valid d) : fnDecl.Makes (sizeOf d) d := by
  obtain ⟨inputs, output⟩ := d
  refine ⟨(inputs, output, ()), rfl, rfl, h, ?_⟩
  simp [fnDecl]
  omega

theorem makes_fnHeader {x : FnHeader} (h : NodeKind.fnHeader.Valid x) :
    fnHeader.Makes (sizeOf x) x := by
  obtain ⟨safety, coroutineKind, constness, ext⟩ := x
  refine ⟨(safety, constness, coroutineKind, ext, ()), rfl, rfl, ?_, ?_⟩
  · cases coroutineKind <;> cases ext <;> exact h
  · simp [fnHeader]

theorem makes_fnSig {s : FnSig} (h : NodeKind.fnSig.Valid s) : fnSig.Makes (sizeOf s) s := by
  obtain ⟨header, decl, span⟩ := s
  refine ⟨(header, decl, span, ()), rfl, rfl, h, ?_⟩
  simp [fnSig]
  omega

theorem makes_whereClause {c : WhereClause} (h : NodeKind.whereClause.Valid c) :
    whereClause.Makes (sizeOf c) c := by
  obtain ⟨hasWhereToken, predicates, span⟩ := c
  obtain rfl := Detail.eq_nil_of_valid (h _ List.mem_cons_self)
  refine ⟨((), hasWhereToken, span, ()), rfl, rfl, h, ?_⟩
  simp [whereClause]

theorem makes_generics {g : Generics} (h : NodeKind.generics.Valid g) :
    generics.Makes (sizeOf g) g := by
  obtain ⟨params, whereClause, span⟩ := g
  obtain rfl := Detail.eq_nil_of_valid (h _ List.mem_cons_self)
  refine ⟨((), whereClause, span, ()), rfl, rfl, h, ?_⟩
  simp [generics]
  omega

/-! ### Items and crates -/

theorem makes_fn {f : Fn} (h : NodeKind.fn.Valid f) : fn.Makes (sizeOf f) f := by
  obtain ⟨sig, defaultness, generics, body⟩ := f
  refine ⟨(defaultness, sig, generics, body, ()), rfl, rfl, h, ?_⟩
  cases body <;> simp [fn] <;> omega

theorem makes_item {i : Item} (h : NodeKind.item.Valid i) : item.Makes (sizeOf i) i := by
  obtain ⟨id, ident, kind, vis, span, attrs⟩ := i
  obtain rfl := Detail.eq_nil_of_valid (h _ List.mem_cons_self)
  refine ⟨((), vis, ident, kind, span, id, ()), rfl, rfl, h, ?_⟩
  simp [item]
  omega

theorem makes_crate {c : Crate} (h : NodeKind.crate.Valid c) : crate.Makes (sizeOf c) c := by
  obtain ⟨items, spans, id, attrs, isPlaceholder⟩ := c
  obtain rfl := Detail.eq_nil_of_valid (h _ List.mem_cons_self)
  refine ⟨((), items, spans, id, isPlaceholder, ()), rfl, rfl, h, ?_⟩
  simp [crate]
  omega

end Form

/-! ### Unions -/

namespace TagTable

theorem makes_visibility {v : Visibility} (h : NodeKind.visibility.Valid v) :
    (Shape.union visibilities).Makes (sizeOf v) v := by
  have hparts := (List.forall_mem_cons.1 h).2
  cases v with
  | visible => exact ⟨("Public", .visible), .head _, (), rfl, rfl, hparts, trivial⟩
  | inherited => exact ⟨("Inherited", .inherited), .tail _ (.head _), (), rfl, rfl, hparts, trivial⟩
  | restricted path shorthand span =>
    refine ⟨("Restricted", .restricted), .tail _ (.tail _ (.head _)),
      (path, shorthand, span, ()), rfl, rfl, hparts, ?_⟩
    simp [Form.restricted]
    omega

theorem makes_itemKind {k : ItemKind} (h : NodeKind.itemKind.Valid k) :
    (Shape.union itemKinds).Makes (sizeOf k) k := by
  obtain ⟨f⟩ := k
  have hfn := Form.makes_fn (List.forall_mem_cons.1 h).2
  exact ⟨("Fn", _), .head _, hfn.variant (by simp) _⟩

theorem makes_returnTy {r : ReturnTy} (h : NodeKind.returnTy.Valid r) :
    (Shape.union returnTypes).Makes (sizeOf r) r := by
  have hparts := (List.forall_mem_cons.1 h).2
  cases r with
  | default span =>
    refine ⟨("Default", .defaultReturn), .head _, (span, ()), rfl, rfl, hparts, ?_⟩
    simp [Form.defaultReturn]
  | ty t => exact ⟨("Ty", _), .tail _ (.head _), (Form.makes_ty hparts).variant (by simp) _⟩

theorem makes_tyKind {k : TyKind} (h : NodeKind.tyKind.Valid k) :
    (Shape.union tyKinds).Makes (sizeOf k) k := by
  obtain ⟨p⟩ := k
  have hpath := Form.makes_path (List.forall_mem_cons.1 h).2
  exact ⟨("Path", _), .head _, hpath.variant (by simp) _⟩

theorem makes_patKind {k : PatKind} (h : NodeKind.patKind.Valid k) :
    (Shape.union patKinds).Makes (sizeOf k) k := by
  obtain ⟨mode, ident, sub⟩ := k
  have hparts := (List.forall_mem_cons.1 h).2
  refine ⟨("Ident", .identPat), .head _, (mode, ident, sub, ()), rfl, rfl, hparts, ?_⟩
  cases sub <;> simp [Form.identPat] <;> omega

theorem makes_stmtKind {k : StmtKind} (h : NodeKind.stmtKind.Valid k) :
    (Shape.union stmtKinds).Makes (sizeOf k) k := by
  have hparts := (List.forall_mem_cons.1 h).2
  cases k with
  | semi e =>
    have hexpr : ∀ d ∈ e.details ++ [], d.Valid := by rwa [List.append_nil]
    refine ⟨("Semi", .semiStmt), .head _, (e, ()), rfl, rfl, hexpr, ?_⟩
    simp [Form.semiStmt]
  | expr e =>
    have hexpr : ∀ d ∈ e.details ++ [], d.Valid := by rwa [List.append_nil]
    refine ⟨("Expr", .exprStmt), .tail _ (.head _), (e, ()), rfl, rfl, hexpr, ?_⟩
    simp [Form.exprStmt]
  | empty =>
    exact ⟨("Empty", .emptyStmt), .tail _ (.tail _ (.head _)), (), rfl, rfl, hparts, trivial⟩

theorem makes_exprKind {k : ExprKind} (h : NodeKind.exprKind.Valid k) :
    (Shape.union exprKinds).Makes (sizeOf k) k := by
  have hparts := (List.forall_mem_cons.1 h).2
  cases k with
  | macCall c =>
    exact ⟨("MacCall", _), .head _, (Form.makes_macCall hparts).variant (by simp) _⟩
  | lit l => exact ⟨("Lit", _), .tail _ (.head _), (Form.makes_lit hparts).variant (by simp) _⟩
  | path p =>
    exact ⟨("Path", _), .tail _ (.tail _ (.head _)), (Form.makes_path hparts).variant (by simp) _⟩

theorem makes_litKind {k : LitKind} (h : NodeKind.litKind.Valid k) :
    (Shape.union litKinds).Makes (sizeOf k) k := by
  have hparts := (List.forall_mem_cons.1 h).2
  cases k with
  | str text => exact ⟨("Str", .strLit), .head _, (text, ()), rfl, rfl, hparts, trivial, trivial⟩
  | int n =>
    exact ⟨("Int", .intLit), .tail _ (.head _), (n, ()), rfl, rfl, hparts, trivial, trivial⟩

theorem makes_macArgs {a : MacArgs} (h : NodeKind.macArgs.Valid a) :
    (Shape.union macArgs).Makes (sizeOf a) a := by
  have hparts := (List.forall_mem_cons.1 h).2
  cases a with
  | empty => exact ⟨("Empty", .emptyArgs), .head _, (), rfl, rfl, hparts, trivial⟩
  | delimited dspan delim tokens =>
    refine ⟨("Delimited", .delimitedArgs), .tail _ (.head _), (dspan, delim, tokens, ()), rfl, rfl,
      ?_, ?_⟩
    · cases tokens <;> exact hparts
    · cases tokens <;> simp [Form.delimitedArgs] <;> omega
  | eq eqSpan tokens =>
    refine ⟨("Eq", .eqArgs), .tail _ (.tail _ (.head _)), (eqSpan, tokens, ()), rfl, rfl, ?_, ?_, ?_,
      trivial⟩
    · cases tokens <;> exact hparts
    · show sizeOf eqSpan < sizeOf (MacArgs.eq eqSpan tokens)
      rw [MacArgs.eq.sizeOf_spec]
      omega
    · rintro source rfl
      show sizeOf source < sizeOf (MacArgs.eq eqSpan (some source))
      rw [MacArgs.eq.sizeOf_spec, Option.some.sizeOf_spec]
      omega

end TagTable

namespace NodeKind

/-- Every valid node is made by the shape of its kind. -/
theorem makes_of_valid (k : NodeKind) {value : k.Value} (h : k.Valid value) :
    k.shape.Makes (k.size value) value := by
  cases k with
  | crate => exact Form.makes_crate h
  | item => exact Form.makes_item h
  | visibility => exact TagTable.makes_visibility h
  | itemKind => exact TagTable.makes_itemKind h
  | fn => exact Form.makes_fn h
  | fnSig => exact Form.makes_fnSig h
  | fnHeader => exact Form.makes_fnHeader h
  | fnDecl => exact Form.makes_fnDecl h
  | param => exact Form.makes_param h
  | returnTy => exact TagTable.makes_returnTy h
  | generics => exact Form.makes_generics h
  | whereClause => exact Form.makes_whereClause h
  | ty => exact Form.makes_ty h
  | tyKind => exact TagTable.makes_tyKind h
  | pat => exact Form.makes_pat h
  | patKind => exact TagTable.makes_patKind h
  | bindingMode => exact Form.makes_bindingMode h
  | block => exact Form.makes_block h
  | stmt => exact Form.makes_stmt h
  | stmtKind => exact TagTable.makes_stmtKind h
  | expr => exact Form.makes_expr h
  | exprKind => exact TagTable.makes_exprKind h
  | macCall => exact Form.makes_macCall h
  | lit => exact Form.makes_lit h
  | litKind => exact TagTable.makes_litKind h
  | macArgs => exact TagTable.makes_macArgs h
  | path => exact Form.makes_path h
  | pathSegment => exact Form.makes_pathSegment h
  | genericArgs => exact Form.makes_genericArgs h
  | span => exact Form.makes_span h
  | modSpans => exact Form.makes_modSpans h
  | delSpan => exact Form.makes_delSpan h
  | ident => exact Form.makes_ident h
  | tokenStream => exact Form.makes_tokenStream h
  | delimiter => exact ⟨value, rfl⟩
  | items | params | stmts | pathSegments =>
    -- The nodes of a valid row are valid, since their details are among those of the row.
    refine ⟨value, rfl, ?_⟩
    intro node hnode
    refine ⟨?_, List.sizeOf_lt_of_mem hnode⟩
    intro d hd
    exact h d (List.mem_flatMap.2 ⟨node, hnode, hd⟩)

end NodeKind

end CrateNotation
