import CrateNotation.Proofs.Crate.Details
import CrateNotation.Proofs.Schema.Catalogue
import Mathlib.Data.List.Forall2

/-!
# Forms that make valid nodes

A form makes a node of the values of its fields.  If the values are in order and the form does not
refuse them, the node must be in order too, and the tags in the node must be those in the values,
behind its own tag if it is a node of a union.  A form like that is `Sound`.

Every form of the notation is.  Most of them put the details of their values into a node as they
are.  A span is made of numbers and is checked by its form.  A macro call without arguments gets
arguments all the same, whose tag cannot be seen in the values; it is an unknown one there.

## Main Definitions

* `Values.details` — the details in the values of fields
* `TagAgrees` — a tag is as it is written, if it is written
* `Form.Sound` — forms that make valid nodes of valid values

## Main Statements

* `NodeKind.sound_of_mem_forms` — every form of the notation is sound
-/

namespace CrateNotation

/-! ## Details in the values of fields -/

namespace Content

/-- The details that stand for a value that is `nil`.  Where it might be a node of a union, it is
one whose tag is not known. -/
def nilDetails : Content → List Detail
  | node k =>
    match k.table? with
    | some _ => [.tag none]
    | none => []
  | text | flag | word _ | integer _ | nothing _ | orNil _ => []

/-- The details of a value. -/
def details : (c : Content) → c.Value → List Detail
  | integer range, value => [.integer range value]
  | nothing _, _ => [.unsupported 0]
  | node k, value => k.details value
  | orNil c, value => value.elim c.nilDetails c.details
  | text, _ | flag, _ | word _, _ => []

theorem valid_of_mem_nilDetails {c : Content} : ∀ d ∈ c.nilDetails, d.Valid := by
  intro d hd
  cases c with
  | node k =>
    rw [nilDetails] at hd
    split at hd
    · obtain rfl := List.mem_singleton.1 hd
      trivial
    · cases hd
  | text | flag | word v | integer range | nothing what | orNil c => cases hd

end Content

/-- The details of the value of a field. -/
def Field.details : (f : Field) → f.Value → List Detail
  | required _ content, value | optional _ content _, value => content.details value
  | id, i => [.id i]

/-- The details of the values of fields, in the order of reading. -/
def Values.details : (fs : List Field) → Values fs → List Detail
  | [], _ => []
  | f :: fs, (value, values) => f.details value ++ details fs values

/-- The tags for which nothing is written if a field is not. -/
def Field.absentTags : Field → List (Option String)
  | optional _ content absent => (tagsOf (content.details absent)).map fun _ => none
  | required .. | id => []

/-- Whether what stands for a field that is not written is in order. -/
def Field.absentValid : Field → Bool
  | optional _ content absent => ∀ d ∈ content.details absent, d.Valid
  | required .. | id => true

/-! ## Tags -/

/-- A tag is the one that is written, if one is. -/
def TagAgrees (tag written : Option String) : Prop :=
  ∀ text ∈ written, tag = some text

theorem TagAgrees.refl (tag : Option String) : TagAgrees tag tag :=
  fun _ h => h

theorem TagAgrees.trans {a b c : Option String} (hab : TagAgrees a b) (hbc : TagAgrees b c) :
    TagAgrees a c :=
  fun text h => hab text (hbc text h)

/-- Tags are those that are written, one by one, where any are. -/
abbrev TagsAgree : List (Option String) → List (Option String) → Prop :=
  List.Forall₂ TagAgrees

theorem TagsAgree.refl (tags : List (Option String)) : TagsAgree tags tags :=
  List.forall₂_same.2 fun tag _ => .refl tag

theorem TagsAgree.trans {a b c : List (Option String)} (hab : TagsAgree a b)
    (hbc : TagsAgree b c) : TagsAgree a c := by
  induction hab generalizing c with
  | nil => exact hbc
  | cons htag _ ih =>
    cases hbc with
    | cons htag' hmore => exact .cons (htag.trans htag') (ih hmore)

/-- Nothing is said about tags that are not written. -/
theorem tagsAgree_unwritten (tags : List (Option String)) :
    TagsAgree tags (tags.map fun _ => none) :=
  List.forall₂_map_right_iff.2 (List.forall₂_same.2 fun _ _ => nofun)

@[simp]
theorem tagsOf_append (details more : List Detail) :
    tagsOf (details ++ more) = tagsOf details ++ tagsOf more :=
  List.filterMap_append

/-! ## Sound forms -/

/-- Nodes of a form are in order if the values of its fields are, and have the tags `own` and those
of the values. -/
structure Form.Sound {α : Type} (form : Form α) (own : List (Option String))
    (details : α → List Detail) : Prop where
  absent : form.fields.all Field.absentValid = true
  valid : ∀ values, (∀ d ∈ Values.details form.fields values, d.Valid) →
    form.refuse values = none → ∀ d ∈ details (form.make values), d.Valid
  tags : ∀ values, TagsAgree (tagsOf (details (form.make values)))
    (own ++ tagsOf (Values.details form.fields values))
  blank : ∀ a ∈ form.blank, (∀ d ∈ details a, d.Valid) ∧
    tagsOf (details a) = own ++ form.fields.flatMap Field.absentTags

section Forms

variable {α β : Type} {form : Form α} {own : List (Option String)} {details : α → List Detail}

/-- A form need only put the details of its values into a node as they are. -/
theorem Form.sound_of_details (habsent : form.fields.all Field.absentValid = true)
    (hblank : form.blank = none)
    (hmake : ∀ values, details (form.make values) =
      own.map .tag ++ Values.details form.fields values) : form.Sound own details where
  absent := habsent
  valid := by
    intro values hvalues _ d hd
    rw [hmake, List.mem_append] at hd
    rcases hd with hd | hd
    · obtain ⟨text, -, rfl⟩ := List.mem_map.1 hd
      trivial
    · exact hvalues d hd
  tags := by
    intro values
    have hown : tagsOf (own.map .tag) = own := by
      rw [tagsOf, List.filterMap_map]
      exact List.filterMap_some
    rw [hmake, tagsOf_append, hown]
    exact .refl _
  blank := by
    intro a ha
    rw [hblank] at ha
    cases ha

/-- A node that is wrapped as one of a union has one tag more. -/
theorem Form.Sound.variant {f : α → β} {unionDetails : β → List Detail} {tag : String}
    (h : form.Sound [] details) (hblank : form.blank = none)
    (hf : ∀ a, unionDetails (f a) = .tag (some tag) :: details a) :
    (form.map f).Sound [some tag] unionDetails where
  absent := h.absent
  valid := by
    intro values hvalues haccepted
    show ∀ d ∈ unionDetails (f (form.make values)), d.Valid
    rw [hf]
    exact List.forall_mem_cons.2 ⟨trivial, h.valid values hvalues haccepted⟩
  tags := by
    intro values
    show TagsAgree (tagsOf (unionDetails (f (form.make values)))) _
    rw [hf]
    exact .cons (.refl _) (h.tags values)
  blank := by
    intro b hb
    obtain ⟨a, ha, rfl⟩ := Option.map_eq_some_iff.1 hb
    rw [hblank] at ha
    cases ha

end Forms

/-- Nodes of a shape are in order if what they are made of is, in whichever form they are written,
and have the tags of that. -/
def Shape.Sound {α : Type} (details : α → List Detail) : Shape α → Prop
  | form f => f.Sound [] details
  | union table => ∀ entry ∈ table.entries, entry.2.Sound [some entry.1] details
  | row k make => ∀ nodes, details (make nodes) = nodes.flatMap k.details
  | word _ make => ∀ w, details (make w) = []

/-! ## The schema -/

namespace Form

/-- A span is checked by its form. -/
theorem sound_span : span.Sound [] Span.details where
  absent := rfl
  valid := by
    rintro ⟨lo, hi, ctxt, _⟩ hvalues haccepted
    have hlo : 0 ≤ lo ∧ lo ≤ maxIndex :=
      hvalues (.integer ⟨"lo", 0, maxIndex⟩ lo) List.mem_cons_self
    have hhi : 0 ≤ hi ∧ hi ≤ maxIndex :=
      hvalues (.integer ⟨"hi", 0, maxIndex⟩ hi) (List.mem_cons_of_mem _ List.mem_cons_self)
    have hctxt : 0 ≤ ctxt ∧ ctxt ≤ maxIndex :=
      hvalues (.integer ⟨"ctxt", 0, maxIndex⟩ ctxt)
        (List.mem_cons_of_mem _ (List.mem_cons_of_mem _ List.mem_cons_self))
    have hle : lo ≤ hi := by
      change (if lo > hi then some _ else none) = none at haccepted
      split at haccepted
      · cases haccepted
      next h => exact Int.not_lt.1 h
    exact List.forall_mem_singleton.2 ⟨hlo.1, hle, hhi.2, hctxt.1, hctxt.2⟩
  tags := fun _ => .refl _
  blank := by
    intro a ha
    obtain rfl := Option.some.inj ha
    decide

/-- A macro call gets arguments where none are written. -/
theorem sound_macCall : macCall.Sound [] MacCall.details where
  absent := rfl
  valid := by
    rintro ⟨path, _ | args, _⟩ hvalues -
    · have hpath := (List.forall_mem_append.1 hvalues).1
      exact List.forall_mem_append.2 ⟨hpath, List.forall_mem_singleton.2 trivial⟩
    · exact hvalues
  tags := by
    rintro ⟨path, _ | args, _⟩
    · show TagsAgree (tagsOf (path.details ++ [.tag (some MacArgs.empty.tag)]))
        (tagsOf (path.details ++ [.tag none]))
      rw [tagsOf_append, tagsOf_append]
      exact List.rel_append (TagsAgree.refl _) (.cons nofun .nil)
    · exact .refl _
  blank := by
    intro a ha
    cases ha

theorem sound_path : path.Sound [] Path.details := by
  refine sound_of_details rfl rfl ?_
  rintro ⟨segments, span, _ | tokens, _⟩ <;> rfl

theorem sound_ty : ty.Sound [] Ty.details :=
  sound_of_details rfl rfl fun _ => rfl

theorem sound_pat : pat.Sound [] Pat.details :=
  sound_of_details rfl rfl fun (kind, span, id, ()) => Pat.details_ofKind id kind span

theorem sound_fn : fn.Sound [] Fn.details :=
  sound_of_details rfl rfl fun _ => rfl

theorem sound_lit : lit.Sound [] Lit.details :=
  sound_of_details rfl rfl fun _ => rfl

end Form

namespace NodeKind

open Form

/-- The nodes of every kind are valid if what they are made of is. -/
theorem sound_shape (k : NodeKind) : k.shape.Sound k.details := by
  cases k with
  -- Lists with a form of their own.
  | crate | item | fnSig | fnDecl | param | stmt | expr | pathSegment | generics | whereClause
  | genericArgs | modSpans | delSpan | ident | tokenStream | bindingMode =>
    apply sound_of_details
    · rfl
    · rfl
    · intro values
      rfl
  | fnHeader =>
    refine sound_of_details rfl rfl ?_
    rintro ⟨safety, constness, _ | coroutineKind, _ | ext, _⟩ <;> rfl
  | block =>
    refine sound_of_details rfl rfl ?_
    rintro ⟨stmts, rules, span, _ | tokens, id, _⟩ <;> rfl
  | fn => exact sound_fn
  | path => exact sound_path
  | ty => exact sound_ty
  | pat => exact sound_pat
  | lit => exact sound_lit
  | macCall => exact sound_macCall
  | span => exact sound_span
  -- Lists whose tag says which form they are in.
  | visibility =>
    have hvisible : visible.Sound [some "Public"] Visibility.details :=
      sound_of_details rfl rfl fun _ => rfl
    have hinherited : inherited.Sound [some "Inherited"] Visibility.details :=
      sound_of_details rfl rfl fun _ => rfl
    have hrestricted : restricted.Sound [some "Restricted"] Visibility.details :=
      sound_of_details rfl rfl fun _ => rfl
    exact List.forall_mem_cons.2 ⟨hvisible, List.forall_mem_cons.2 ⟨hinherited,
      List.forall_mem_singleton.2 hrestricted⟩⟩
  | itemKind => exact List.forall_mem_singleton.2 (sound_fn.variant rfl fun _ => rfl)
  | returnTy =>
    have hdefault : defaultReturn.Sound [some "Default"] ReturnTy.details :=
      sound_of_details rfl rfl fun _ => rfl
    exact List.forall_mem_cons.2 ⟨hdefault,
      List.forall_mem_singleton.2 (sound_ty.variant rfl fun _ => rfl)⟩
  | tyKind => exact List.forall_mem_singleton.2 (sound_path.variant rfl fun _ => rfl)
  | patKind =>
    have hident : identPat.Sound [some "Ident"] PatKind.details :=
      sound_of_details rfl rfl fun _ => rfl
    exact List.forall_mem_singleton.2 hident
  | stmtKind =>
    have hsemi : semiStmt.Sound [some "Semi"] StmtKind.details := by
      refine sound_of_details rfl rfl ?_
      rintro ⟨expr, _⟩
      exact congrArg (List.cons _) (List.append_nil _).symm
    have hexpr : exprStmt.Sound [some "Expr"] StmtKind.details := by
      refine sound_of_details rfl rfl ?_
      rintro ⟨expr, _⟩
      exact congrArg (List.cons _) (List.append_nil _).symm
    have hempty : emptyStmt.Sound [some "Empty"] StmtKind.details :=
      sound_of_details rfl rfl fun _ => rfl
    exact List.forall_mem_cons.2 ⟨hsemi, List.forall_mem_cons.2 ⟨hexpr,
      List.forall_mem_singleton.2 hempty⟩⟩
  | exprKind =>
    exact List.forall_mem_cons.2 ⟨(sound_macCall.variant rfl fun _ => rfl), List.forall_mem_cons.2
      ⟨(sound_lit.variant rfl fun _ => rfl),
        List.forall_mem_singleton.2 (sound_path.variant rfl fun _ => rfl)⟩⟩
  | litKind =>
    have hstr : strLit.Sound [some "Str"] LitKind.details :=
      sound_of_details rfl rfl fun _ => rfl
    have hint : intLit.Sound [some "Int"] LitKind.details :=
      sound_of_details rfl rfl fun _ => rfl
    exact List.forall_mem_cons.2 ⟨hstr, List.forall_mem_singleton.2 hint⟩
  | macArgs =>
    have hempty : emptyArgs.Sound [some "Empty"] MacArgs.details :=
      sound_of_details rfl rfl fun _ => rfl
    have hdelimited : delimitedArgs.Sound [some "Delimited"] MacArgs.details := by
      refine sound_of_details rfl rfl ?_
      rintro ⟨dspan, delim, _ | tokens, _⟩ <;> rfl
    have heq : eqArgs.Sound [some "Eq"] MacArgs.details := by
      refine sound_of_details rfl rfl ?_
      rintro ⟨eqSpan, _ | tokens, _⟩ <;> rfl
    exact List.forall_mem_cons.2 ⟨hempty, List.forall_mem_cons.2 ⟨hdelimited,
      List.forall_mem_singleton.2 heq⟩⟩
  -- Rows of nodes, and words.
  | items | params | stmts | pathSegments | delimiter => exact fun _ => rfl

end NodeKind

end CrateNotation
