import CrateNotation.Proofs.Crate.Outline
import CrateNotation.Schema.Forms

/-!
# Forms that number their nodes last

The fields of a form are read one after the other, and among them the id.  For the node of a form to
be numbered after the nodes in its fields, nothing that is read after the id may hold a numbered
node, and the node that is made must hold the nodes of the fields in the order of reading.  A form
like that is `Numbered`.

Every form of the notation is.  The crate reads a field after its id, but only a flag.

## Main Definitions

* `Values.outline`, `Values.id?` — the numbered nodes in the values of fields, and the id among them
* `Form.Numbered`, `Shape.Numbered` — forms and shapes whose nodes are numbered last

## Main Statements

* `NodeKind.numbered_shape` — the nodes of every kind are
-/

namespace CrateNotation

/-! ## Numbered nodes in the values of fields -/

/-- Whether values can have no numbered nodes in them. -/
def Content.isPlain : Content → Bool
  | node k => k.isPlain
  | orNil c => c.isPlain
  | text | flag | word _ | integer _ | nothing _ => true

/-- The numbered nodes in a value. -/
def Content.nodes : (c : Content) → c.Value → Forest NodeId
  | node k, value => k.outline value
  | orNil c, value => value.elim .nil c.nodes
  | text, _ | flag, _ | word _, _ | integer _, _ | nothing _, _ => .nil

theorem Content.nodes_of_isPlain {c : Content} (h : c.isPlain = true) (value : c.Value) :
    c.nodes value = .nil := by
  induction c with
  | node k => exact NodeKind.outline_of_isPlain h value
  | orNil c ih =>
    cases value with
    | none => rfl
    | some value => exact ih h value
  | text | flag | word v | integer range | nothing what => rfl

namespace Field

/-- Whether there may be numbered nodes in a field. The id is not one. -/
def holdsNodes : Field → Bool
  | required _ content | optional _ content _ => !content.isPlain
  | id => false

/-- Whether a field is not the id and has no numbered nodes in it. -/
def isPlain : Field → Bool
  | required _ content | optional _ content _ => content.isPlain
  | id => false

/-- The numbered nodes in the value of a field. The id is not one. -/
def nodes : (f : Field) → f.Value → Forest NodeId
  | required _ content, value | optional _ content _, value => content.nodes value
  | id, _ => .nil

/-- Whether what stands for a field that is not written has no numbered nodes in it. -/
def absentPlain : Field → Bool
  | optional _ content absent => content.nodes absent = .nil
  | required .. | id => true

theorem nodes_of_not_holdsNodes {f : Field} (h : f.holdsNodes = false) (value : f.Value) :
    f.nodes value = .nil := by
  cases f with
  | required name content =>
    have hplain : content.isPlain = true := by simpa [holdsNodes] using h
    exact content.nodes_of_isPlain hplain value
  | optional name content absent =>
    have hplain : content.isPlain = true := by simpa [holdsNodes] using h
    exact content.nodes_of_isPlain hplain value
  | id => rfl

theorem not_holdsNodes_of_isPlain {f : Field} (h : f.isPlain = true) : f.holdsNodes = false := by
  cases f with
  | required name content => simpa [holdsNodes, isPlain] using h
  | optional name content absent => simpa [holdsNodes, isPlain] using h
  | id => rfl

theorem absentPlain_of_isPlain {f : Field} (h : f.isPlain = true) : f.absentPlain = true := by
  cases f with
  | optional name content absent => exact decide_eq_true (content.nodes_of_isPlain h absent)
  | required name content => rfl
  | id => rfl

end Field

/-- Whether only plain fields are read after an id. -/
def idLast : List Field → Bool
  | [] => true
  | .id :: fs => fs.all Field.isPlain
  | .required .. :: fs | .optional .. :: fs => idLast fs

theorem idLast_of_isPlain {fs : List Field} (h : ∀ f ∈ fs, f.isPlain = true) :
    idLast fs = true := by
  induction fs with
  | nil => rfl
  | cons f fs ih =>
    obtain ⟨hf, hfs⟩ := List.forall_mem_cons.1 h
    cases f with
    | required name content => exact ih hfs
    | optional name content absent => exact ih hfs
    | id => cases hf

namespace Values

/-- The numbered nodes in the values of fields, field by field, for the fields that may hold any. -/
def parts : (fs : List Field) → Values fs → List (Forest NodeId)
  | [], _ => []
  | f :: fs, (value, values) =>
    if f.holdsNodes then f.nodes value :: parts fs values else parts fs values

/-- The numbered nodes in the values of fields, in the order of reading. -/
def outline (fs : List Field) (values : Values fs) : Forest NodeId :=
  .join (parts fs values)

/-- The id among the values of fields. -/
def id? : (fs : List Field) → Values fs → Option NodeId
  | [], _ => none
  | .id :: _, (id, _) => some id
  | .required .. :: fs, (_, values) | .optional .. :: fs, (_, values) => id? fs values

/-- A field that holds no nodes may be left out or not. -/
theorem outline_cons (f : Field) (fs : List Field) (value : f.Value) (values : Values fs) :
    outline (f :: fs) (value, values) = f.nodes value ++ outline fs values := by
  rw [outline, parts]
  cases hf : f.holdsNodes with
  | true => exact Forest.join_cons _ _
  | false =>
    rw [f.nodes_of_not_holdsNodes hf value]
    rfl

/-- Plain fields have neither numbered nodes nor an id. -/
theorem outline_of_isPlain {fs : List Field} (h : ∀ f ∈ fs, f.isPlain = true)
    (values : Values fs) : outline fs values = .nil ∧ id? fs values = none := by
  induction fs with
  | nil => exact ⟨rfl, rfl⟩
  | cons f fs ih =>
    obtain ⟨hf, hfs⟩ := List.forall_mem_cons.1 h
    obtain ⟨value, values⟩ := values
    obtain ⟨houtline, hid⟩ := ih hfs values
    constructor
    · rw [outline_cons, houtline,
        f.nodes_of_not_holdsNodes (f.not_holdsNodes_of_isPlain hf) value]
      rfl
    · cases f with
      | required name content => exact hid
      | optional name content absent => exact hid
      | id => cases hf

end Values

/-! ## Numbered forms -/

/-- Nodes of a form are numbered after the nodes in their fields, which they hold in the order of
reading. -/
structure Form.Numbered {α : Type} (form : Form α) (outline : α → Forest NodeId) : Prop where
  idLast : idLast form.fields = true
  absent : form.fields.all Field.absentPlain = true
  make : ∀ values, outline (form.make values) =
    .wrap (Values.outline form.fields values) (Values.id? form.fields values)
  blank : ∀ a ∈ form.blank, outline a = .nil ∧ ∀ f ∈ form.fields, f.isPlain = true

section Forms

variable {α β : Type}

/-- Where the empty list stands for nothing, there is nothing to say about it. -/
theorem Form.numbered_of_make {form : Form α} {outline : α → Forest NodeId}
    (hlast : CrateNotation.idLast form.fields = true)
    (habsent : form.fields.all Field.absentPlain = true) (hblank : form.blank = none)
    (hmake : ∀ values, outline (form.make values) =
      .wrap (Values.outline form.fields values) (Values.id? form.fields values)) :
    form.Numbered outline where
  idLast := hlast
  absent := habsent
  make := hmake
  blank := by
    intro a ha
    rw [hblank] at ha
    cases ha

/-- A form with plain fields need only make nodes without numbered nodes in them. -/
theorem Form.numbered_of_isPlain {form : Form α} {outline : α → Forest NodeId}
    (hfields : form.fields.all Field.isPlain = true)
    (hmake : ∀ values, outline (form.make values) = .nil)
    (hblank : ∀ a ∈ form.blank, outline a = .nil) : form.Numbered outline where
  idLast := idLast_of_isPlain (List.all_eq_true.1 hfields)
  absent := by
    rw [List.all_eq_true] at hfields ⊢
    exact fun f hf => f.absentPlain_of_isPlain (hfields f hf)
  make := by
    intro values
    obtain ⟨houtline, hid⟩ := Values.outline_of_isPlain (List.all_eq_true.1 hfields) values
    rw [hmake, houtline, hid]
    rfl
  blank := fun a ha => ⟨hblank a ha, List.all_eq_true.1 hfields⟩

/-- The same form for what a node is turned into. -/
theorem Form.Numbered.map {form : Form α} {f : α → β} {outline : β → Forest NodeId}
    (h : form.Numbered (outline ∘ f)) : (form.map f).Numbered outline where
  idLast := h.idLast
  absent := h.absent
  make := h.make
  blank := by
    intro b hb
    obtain ⟨a, ha, rfl⟩ := Option.map_eq_some_iff.1 hb
    exact h.blank a ha

end Forms

/-- Nodes of a shape are numbered last, in whichever form they are written. -/
def Shape.Numbered {α : Type} (outline : α → Forest NodeId) : Shape α → Prop
  | form f => f.Numbered outline
  | union table => ∀ entry ∈ table.entries, entry.2.Numbered outline
  | row k make => ∀ nodes, outline (make nodes) = .flatMap k.outline nodes
  | word _ make => ∀ w, outline (make w) = .nil

/-! ## The schema

Of most forms it can be seen by looking at them that what they make holds the nodes of their fields
in the order of reading. -/

namespace Form

theorem numbered_path : path.Numbered Path.outline :=
  numbered_of_make rfl rfl rfl fun _ => rfl

theorem numbered_ty : ty.Numbered Ty.outline :=
  numbered_of_make rfl rfl rfl fun _ => rfl

/-- A pattern is put together of its kind and its id. -/
theorem numbered_pat : pat.Numbered Pat.outline :=
  numbered_of_make rfl rfl rfl fun (kind, span, id, ()) => Pat.outline_ofKind id kind span

end Form

namespace NodeKind

open Form

/-- The nodes of every kind are numbered after the nodes in their fields. -/
theorem numbered_shape (k : NodeKind) : k.shape.Numbered k.outline := by
  cases k with
  -- Lists with a form of their own.
  | crate | item | fn | fnSig | fnDecl | param | block | stmt | expr | macCall | pathSegment =>
    apply numbered_of_make
    · rfl
    · rfl
    · rfl
    · intro values
      rfl
  | path => exact numbered_path
  | ty => exact numbered_ty
  | pat => exact numbered_pat
  | fnHeader | generics | whereClause | bindingMode | lit | genericArgs | span | modSpans | delSpan
  | ident | tokenStream =>
    apply numbered_of_isPlain
    · rfl
    · intro values
      rfl
    · intro a _
      rfl
  -- Lists whose tag says which form they are in.
  | visibility =>
    have hvisible : Form.visible.Numbered Visibility.outline :=
      numbered_of_make rfl rfl rfl fun _ => rfl
    have hinherited : Form.inherited.Numbered Visibility.outline :=
      numbered_of_make rfl rfl rfl fun _ => rfl
    have hrestricted : Form.restricted.Numbered Visibility.outline :=
      numbered_of_make rfl rfl rfl fun _ => rfl
    exact List.forall_mem_cons.2 ⟨hvisible, List.forall_mem_cons.2 ⟨hinherited,
      List.forall_mem_singleton.2 hrestricted⟩⟩
  | itemKind =>
    have hfn : Form.fn.Numbered (ItemKind.outline ∘ .fn) :=
      numbered_of_make rfl rfl rfl fun _ => rfl
    exact List.forall_mem_singleton.2 hfn.map
  | returnTy =>
    have hdefault : Form.defaultReturn.Numbered ReturnTy.outline :=
      numbered_of_make rfl rfl rfl fun _ => rfl
    have hty : Form.ty.Numbered (ReturnTy.outline ∘ .ty) := numbered_ty
    exact List.forall_mem_cons.2 ⟨hdefault, List.forall_mem_singleton.2 hty.map⟩
  | tyKind =>
    have hpath : Form.path.Numbered (TyKind.outline ∘ .path) := numbered_path
    exact List.forall_mem_singleton.2 hpath.map
  | patKind =>
    have hident : Form.identPat.Numbered PatKind.outline :=
      numbered_of_make rfl rfl rfl fun _ => rfl
    exact List.forall_mem_singleton.2 hident
  | stmtKind =>
    have hsemi : Form.semiStmt.Numbered StmtKind.outline :=
      numbered_of_make rfl rfl rfl fun _ => rfl
    have hexpr : Form.exprStmt.Numbered StmtKind.outline :=
      numbered_of_make rfl rfl rfl fun _ => rfl
    have hempty : Form.emptyStmt.Numbered StmtKind.outline :=
      numbered_of_make rfl rfl rfl fun _ => rfl
    exact List.forall_mem_cons.2 ⟨hsemi, List.forall_mem_cons.2 ⟨hexpr,
      List.forall_mem_singleton.2 hempty⟩⟩
  | exprKind =>
    have hmacCall : Form.macCall.Numbered (ExprKind.outline ∘ .macCall) :=
      numbered_of_make rfl rfl rfl fun _ => rfl
    have hlit : Form.lit.Numbered (ExprKind.outline ∘ .lit) :=
      numbered_of_isPlain rfl (fun _ => rfl) fun _ _ => rfl
    have hpath : Form.path.Numbered (ExprKind.outline ∘ .path) := numbered_path
    exact List.forall_mem_cons.2 ⟨hmacCall.map, List.forall_mem_cons.2 ⟨hlit.map,
      List.forall_mem_singleton.2 hpath.map⟩⟩
  | litKind =>
    have hstr : Form.strLit.Numbered litKind.outline :=
      numbered_of_isPlain rfl (fun _ => rfl) fun _ _ => rfl
    have hint : Form.intLit.Numbered litKind.outline :=
      numbered_of_isPlain rfl (fun _ => rfl) fun _ _ => rfl
    exact List.forall_mem_cons.2 ⟨hstr, List.forall_mem_singleton.2 hint⟩
  | macArgs =>
    have hempty : Form.emptyArgs.Numbered macArgs.outline :=
      numbered_of_isPlain rfl (fun _ => rfl) fun _ _ => rfl
    have hdelimited : Form.delimitedArgs.Numbered macArgs.outline :=
      numbered_of_isPlain rfl (fun _ => rfl) fun _ _ => rfl
    have heq : Form.eqArgs.Numbered macArgs.outline :=
      numbered_of_isPlain rfl (fun _ => rfl) fun _ _ => rfl
    exact List.forall_mem_cons.2 ⟨hempty, List.forall_mem_cons.2 ⟨hdelimited,
      List.forall_mem_singleton.2 heq⟩⟩
  -- Rows of nodes, and words.
  | items | params | stmts | pathSegments | delimiter => exact fun _ => rfl

end NodeKind

end CrateNotation
