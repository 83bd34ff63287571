import CrateNotation.Proofs.Crate.Renumbering
import CrateNotation.Proofs.Schema.Numbered

/-!
# Forms that do not look at ids

A form makes a node of the values of its fields, the id among them.  If other ids are put into the
values, then the node should be the same with these ids, and whether the values go together should
not depend on them.  A form like that is `Renumbered`.

Every form of the notation is.  Only spans are ever refused, and there are no ids in them.

## Main Definitions

* `Values.renumber` — the walk through the values of fields
* `Form.Renumbered`, `Shape.Renumbered` — forms and shapes that do not look at ids

## Main Statements

* `NodeKind.renumbered_shape` — no form of the notation does
-/

namespace CrateNotation

open Renumber

/-! ## Walks through the values of fields -/

/-- The value with other ids. -/
def Content.renumber : (c : Content) → c.Value → Renumber c.Value
  | node k, value => k.renumber value
  | orNil c, value => value.mapM c.renumber
  | text, value | flag, value | word _, value | integer _, value | nothing _, value => pure value

/-- The value of a field with other ids. -/
def Field.renumber : (f : Field) → f.Value → Renumber f.Value
  | required _ content, value | optional _ content _, value => content.renumber value
  | id, _ => takeId

/-- The values of fields with other ids, taken in the order of reading. -/
def Values.renumber : (fs : List Field) → Values fs → Renumber (Values fs)
  | [], _ => pure ()
  | f :: fs, (value, values) => do
    let value ← f.renumber value
    return (value, ← renumber fs values)

theorem NodeKind.renumber_of_isPlain {k : NodeKind} (h : k.isPlain = true) : k.renumber = pure := by
  cases k <;> first | rfl | cases h

theorem Content.renumber_of_isPlain {c : Content} (h : c.isPlain = true) : c.renumber = pure := by
  induction c with
  | node k => exact NodeKind.renumber_of_isPlain h
  | orNil c ih =>
    funext value
    rw [renumber, ih h]
    cases value <;> rfl
  | text | flag | word v | integer range | nothing what => rfl

theorem Field.renumber_of_isPlain {f : Field} (h : f.isPlain = true) : f.renumber = pure := by
  cases f with
  | required name content => exact content.renumber_of_isPlain h
  | optional name content absent => exact content.renumber_of_isPlain h
  | id => cases h

/-- There are no ids in plain fields. -/
theorem Values.renumber_of_isPlain {fs : List Field} (h : ∀ f ∈ fs, f.isPlain = true) :
    Values.renumber fs = pure := by
  induction fs with
  | nil => rfl
  | cons f fs ih =>
    obtain ⟨hf, hfs⟩ := List.forall_mem_cons.1 h
    funext (value, values)
    rw [renumber, f.renumber_of_isPlain hf, ih hfs]
    rfl

/-! ## Forms -/

/-- What a form makes of values with other ids is the node with these ids, and is refused if that of
the values is. -/
structure Form.Renumbered {α : Type} (form : Form α) (renumber : α → Renumber α) : Prop where
  make : ∀ values, renumber (form.make values) = form.make <$> Values.renumber form.fields values
  refuse : ∀ values others, Values.renumber form.fields values = Values.renumber form.fields others →
    form.refuse values = form.refuse others

section Forms

variable {α β : Type}

/-- Most forms refuse nothing. -/
theorem Form.renumbered_of_make {form : Form α} {renumber : α → Renumber α}
    (hrefuse : form.refuse = fun _ => none)
    (hmake : ∀ values, renumber (form.make values) =
      form.make <$> Values.renumber form.fields values) : form.Renumbered renumber where
  make := hmake
  refuse := by
    intro values others _
    rw [hrefuse]

/-- A form with plain fields makes nodes without ids. -/
theorem Form.renumbered_of_isPlain {form : Form α} (h : form.fields.all Field.isPlain = true) :
    form.Renumbered pure where
  make := by
    intro values
    rw [Values.renumber_of_isPlain (List.all_eq_true.1 h)]
    rfl
  refuse := by
    intro values others hvalues
    rw [Values.renumber_of_isPlain (List.all_eq_true.1 h)] at hvalues
    have hrun := congrArg (fun walk : Renumber _ => (walk.run []).1) hvalues
    obtain rfl : values = others := hrun
    rfl

/-- The same form for what a node is turned into. -/
theorem Form.Renumbered.map {form : Form α} {f : α → β} {renumber : α → Renumber α}
    {renumber' : β → Renumber β} (h : form.Renumbered renumber)
    (hf : ∀ a, renumber' (f a) = f <$> renumber a) : (form.map f).Renumbered renumber' where
  make := by
    intro (values : Values form.fields)
    show renumber' (f (form.make values)) = (f ∘ form.make) <$> Values.renumber form.fields values
    rw [hf, h.make, comp_map]
  refuse := h.refuse

end Forms

/-- Nodes of a shape with other ids are made of parts with other ids. -/
def Shape.Renumbered {α : Type} (renumber : α → Renumber α) : Shape α → Prop
  | form f => f.Renumbered renumber
  | union table => ∀ entry ∈ table.entries, entry.2.Renumbered renumber
  | row k make => ∀ nodes, renumber (make nodes) = make <$> nodes.mapM k.renumber
  | word _ _ => True

/-! ## The schema

Of most forms it can be seen by looking at them that they put the ids of their values where the walk
through the node finds them.  A field that may be `nil` is looked at in both cases. -/

namespace Form

theorem renumbered_path : path.Renumbered Path.renumber := by
  apply renumbered_of_make rfl
  rintro ⟨segments, span, _ | tokens, ⟨⟩⟩
  · rfl
  · rfl

theorem renumbered_ty : ty.Renumbered Ty.renumber :=
  renumbered_of_make rfl fun _ => rfl

/-- A pattern is put together of its kind and its id. -/
theorem renumbered_pat : pat.Renumbered Pat.renumber := by
  apply renumbered_of_make rfl
  rintro ⟨⟨mode, ident, _ | sub⟩, span, id, ⟨⟩⟩
  · rfl
  · rfl

theorem renumbered_fn : fn.Renumbered Fn.renumber := by
  apply renumbered_of_make rfl
  rintro ⟨defaultness, sig, generics, _ | body, ⟨⟩⟩
  · rfl
  · rfl

theorem renumbered_macCall : macCall.Renumbered MacCall.renumber := by
  apply renumbered_of_make rfl
  rintro ⟨path, _ | args, ⟨⟩⟩
  · rfl
  · rfl

end Form

namespace NodeKind

open Form

/-- No form of the notation looks at ids. -/
theorem renumbered_shape (k : NodeKind) : k.shape.Renumbered k.renumber := by
  cases k with
  -- Lists with a form of their own.
  | crate | item | fnSig | fnDecl | param | stmt | expr => exact renumbered_of_make rfl fun _ => rfl
  | block =>
    apply renumbered_of_make rfl
    rintro ⟨stmts, rules, span, _ | tokens, id, ⟨⟩⟩
    · rfl
    · rfl
  | pathSegment =>
    apply renumbered_of_make rfl
    rintro ⟨ident, _ | args, id, ⟨⟩⟩
    · rfl
    · rfl
  | fn => exact renumbered_fn
  | macCall => exact renumbered_macCall
  | path => exact renumbered_path
  | ty => exact renumbered_ty
  | pat => exact renumbered_pat
  | fnHeader | generics | whereClause | bindingMode | lit | genericArgs | span | modSpans | delSpan
  | ident | tokenStream => exact renumbered_of_isPlain rfl
  -- Lists whose tag says which form they are in.
  | visibility =>
    have hvisible : Form.visible.Renumbered Visibility.renumber :=
      renumbered_of_make rfl fun _ => rfl
    have hinherited : Form.inherited.Renumbered Visibility.renumber :=
      renumbered_of_make rfl fun _ => rfl
    have hrestricted : Form.restricted.Renumbered Visibility.renumber :=
      renumbered_of_make rfl fun _ => rfl
    exact List.forall_mem_cons.2 ⟨hvisible, List.forall_mem_cons.2 ⟨hinherited,
      List.forall_mem_singleton.2 hrestricted⟩⟩
  | itemKind => exact List.forall_mem_singleton.2 (renumbered_fn.map fun _ => rfl)
  | returnTy =>
    have hdefault : Form.defaultReturn.Renumbered ReturnTy.renumber :=
      renumbered_of_make rfl fun _ => rfl
    have hty : (Form.ty.map ReturnTy.ty).Renumbered ReturnTy.renumber :=
      renumbered_ty.map fun _ => rfl
    exact List.forall_mem_cons.2 ⟨hdefault, List.forall_mem_singleton.2 hty⟩
  | tyKind => exact List.forall_mem_singleton.2 (renumbered_path.map fun _ => rfl)
  | patKind =>
    have hident : Form.identPat.Renumbered PatKind.renumber := by
      apply renumbered_of_make rfl
      rintro ⟨mode, ident, _ | sub, ⟨⟩⟩
      · rfl
      · rfl
    exact List.forall_mem_singleton.2 hident
  | stmtKind =>
    have hsemi : Form.semiStmt.Renumbered StmtKind.renumber := renumbered_of_make rfl fun _ => rfl
    have hexpr : Form.exprStmt.Renumbered StmtKind.renumber := renumbered_of_make rfl fun _ => rfl
    have hempty : Form.emptyStmt.Renumbered StmtKind.renumber := renumbered_of_make rfl fun _ => rfl
    exact List.forall_mem_cons.2 ⟨hsemi, List.forall_mem_cons.2 ⟨hexpr,
      List.forall_mem_singleton.2 hempty⟩⟩
  | exprKind =>
    have hmacCall : (Form.macCall.map ExprKind.macCall).Renumbered ExprKind.renumber :=
      renumbered_macCall.map fun _ => rfl
    have hlit : (Form.lit.map ExprKind.lit).Renumbered ExprKind.renumber :=
      (Form.renumbered_of_isPlain rfl).map fun _ => rfl
    have hpath : (Form.path.map ExprKind.path).Renumbered ExprKind.renumber :=
      renumbered_path.map fun _ => rfl
    exact List.forall_mem_cons.2 ⟨hmacCall, List.forall_mem_cons.2 ⟨hlit,
      List.forall_mem_singleton.2 hpath⟩⟩
  | litKind =>
    have hstr : Form.strLit.Renumbered litKind.renumber := renumbered_of_isPlain rfl
    have hint : Form.intLit.Renumbered litKind.renumber := renumbered_of_isPlain rfl
    exact List.forall_mem_cons.2 ⟨hstr, List.forall_mem_singleton.2 hint⟩
  | macArgs =>
    have hempty : Form.emptyArgs.Renumbered macArgs.renumber := renumbered_of_isPlain rfl
    have hdelimited : Form.delimitedArgs.Renumbered macArgs.renumber := renumbered_of_isPlain rfl
    have heq : Form.eqArgs.Renumbered macArgs.renumber := renumbered_of_isPlain rfl
    exact List.forall_mem_cons.2 ⟨hempty, List.forall_mem_cons.2 ⟨hdelimited,
      List.forall_mem_singleton.2 heq⟩⟩
  -- Rows of nodes, and words.
  | items | params | stmts | pathSegments => exact fun _ => (id_map _).symm
  | delimiter => exact trivial

end NodeKind

end CrateNotation
