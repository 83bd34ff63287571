import CrateNotation.Proofs.Build.Reading
import CrateNotation.Proofs.Tree.Relocation

/-!
# What building looks at

Of the elements of a list, building uses what is built from them and what is seen of them at a
glance.  So two lists are built alike if their elements are built alike and look alike, and this is
so even if the lists stand at different places: faults are then found at different places too, and
everything else is the same.

The rules of building are followed from a field up to a shape.  Each of them is given the *views* of
parts instead of the parts, and does the same with them.

## Main Definitions

* `Build.relocate` — a computation whose faults are at other places
* `Part.view` — what building looks at in an element of a list

## Main Statements

* `Shape.read_view` — a list is built from the views of its elements
* `Tree.build_list_congr` — lists whose elements have the same views are built alike
-/

namespace CrateNotation

variable (φ : Position → Position)

/-! ## Computations -/

namespace Build

variable {α β γ : Type}

/-- Computations that come to the same from everywhere are the same. -/
theorem ext {x y : Build α} (h : ∀ issued, x.runFrom issued = y.runFrom issued) : x = y :=
  funext h

/-- The same computation with its faults at other places. -/
def relocate (x : Build α) : Build α :=
  ExceptT.adapt (Fault.relocate φ) x

@[simp]
theorem runFrom_relocate (x : Build α) (issued : Int) :
    (x.relocate φ).runFrom issued =
      (relocateResult φ id (x.runFrom issued).1, (x.runFrom issued).2) := by
  have unfolded : (x.relocate φ).runFrom issued =
      ((x.runFrom issued).1.mapError (Fault.relocate φ), (x.runFrom issued).2) := rfl
  rw [unfolded]
  rcases x.runFrom issued with ⟨_ | _, _⟩ <;> rfl

@[simp]
theorem relocate_id (x : Build α) : x.relocate id = x := by
  apply ext
  intro issued
  rw [runFrom_relocate]
  rcases x.runFrom issued with ⟨e | a, stop⟩
  · rw [relocateResult, Fault.relocate_id]
  · rfl

theorem relocate_nextId : nextId.relocate φ = nextId := by
  apply ext
  intro issued
  rw [runFrom_relocate, runFrom_nextId]
  split <;> rfl

theorem ofExcept_relocateResult (x : Except Fault α) :
    ofExcept (relocateResult φ id x) = (ofExcept x).relocate φ := by
  apply ext
  intro issued
  rw [runFrom_relocate, runFrom_ofExcept, runFrom_ofExcept]

theorem relocate_bind (x : Build α) (f : α → Build β) :
    (x >>= f).relocate φ = x.relocate φ >>= fun a => (f a).relocate φ := by
  apply ext
  intro issued
  rw [runFrom_relocate, runFrom_bind, runFrom_bind, runFrom_relocate]
  rcases x.runFrom issued with ⟨e | a, stop⟩
  · rfl
  · exact (runFrom_relocate φ (f a) stop).symm

theorem relocate_map (f : α → β) (x : Build α) : (f <$> x).relocate φ = f <$> x.relocate φ := by
  rw [map_eq_pure_bind, relocate_bind, map_eq_pure_bind]
  rfl

/-- A check and what follows it are relocated piece by piece. -/
theorem ofExcept_relocateResult_bind {φ : Position → Position} {g : α → γ} {x : Except Fault α}
    {f : α → Build β} {f' : γ → Build β} (hf : ∀ a, f' (g a) = (f a).relocate φ) :
    ofExcept (relocateResult φ g x) >>= f' = (ofExcept x >>= f).relocate φ := by
  apply ext
  intro issued
  rw [runFrom_relocate, runFrom_bind, runFrom_bind, runFrom_ofExcept, runFrom_ofExcept]
  cases x with
  | error e => rfl
  | ok a =>
    show (f' (g a)).runFrom issued = _
    rw [hf, runFrom_relocate]

/-- The elements of a row are relocated one by one. -/
theorem relocate_mapM (f : γ → Build α) (cs : List γ) :
    (cs.mapM f).relocate φ = cs.mapM fun c => (f c).relocate φ := by
  induction cs with
  | nil => rfl
  | cons c cs ih =>
    rw [List.mapM_cons, List.mapM_cons, relocate_bind]
    congr 1
    funext a
    rw [relocate_bind, ih]
    rfl

end Build

open Build

/-! ## Fields -/

/-- What building looks at in an element of a list. -/
def Part.view (p : Part) : Part where
  tree := p.tree.glance φ
  build k := (p.build k).relocate φ

/-- The same keywords with other values. -/
def Fields.map {α β : Type} (g : α → β) (fields : Fields α) : Fields β :=
  ⟨fields.pairs.map (Prod.map id g)⟩

theorem Fields.get?_map {α β : Type} (g : α → β) (fields : Fields α) (name : String) :
    (fields.map g).get? name = (fields.get? name).map g := by
  obtain ⟨pairs⟩ := fields
  induction pairs with
  | nil => rfl
  | cons pair pairs ih =>
    show get? ⟨(pair.1, g pair.2) :: pairs.map (Prod.map id g)⟩ name = _
    rw [get?_cons, get?_cons, Option.map_or]
    congr 1
    split <;> rfl

theorem Fields.ofElements_view (parts : List Part) :
    Fields.ofElements Part.tree (parts.map (Part.view φ)) =
      relocateResult φ (Fields.map (Part.view φ)) (Fields.ofElements Part.tree parts) := by
  induction parts using Fields.ofElements.induct with
  | case1 => rfl
  | case2 key =>
    rw [List.map_singleton, ofElements, ofElements, Part.view, Tree.expectKeyword_glance]
    apply relocateResult_bind
    intro found
    rfl
  | case3 key value more ih =>
    rw [List.map_cons, List.map_cons, ofElements, ofElements, Part.view,
      Tree.expectKeyword_glance]
    apply relocateResult_bind
    intro found
    rw [ih]
    apply relocateResult_bind
    intro rest
    rfl

theorem Content.read_view (c : Content) (p : Part) :
    c.read (p.view φ) = (c.read p).relocate φ := by
  induction c with
  | text =>
    show Build.ofExcept (p.tree.glance φ).expectString = _
    rw [Tree.expectString_glance, ofExcept_relocateResult, read]
  | flag =>
    show Build.ofExcept (p.tree.glance φ).expectFlag = _
    rw [Tree.expectFlag_glance, ofExcept_relocateResult, read]
  | word v =>
    show Build.ofExcept ((p.tree.glance φ).expectWord v) = _
    rw [Tree.expectWord_glance, ofExcept_relocateResult, read]
  | integer range =>
    show Build.ofExcept ((p.tree.glance φ).expectIn range) = _
    rw [Tree.expectIn_glance, ofExcept_relocateResult, read]
  | nothing what =>
    show Build.ofExcept ((p.tree.glance φ).expectNothing what) = _
    rw [Tree.expectNothing_glance, ofExcept_relocateResult, read]
  | node k => rfl
  | orNil c ih =>
    show (if (p.tree.glance φ).isNil = true then _ else some <$> c.read (p.view φ)) = _
    rw [Tree.isNil_glance, ih, read]
    split
    · rfl
    · exact (relocate_map ..).symm

theorem Field.read_view (pos : Position) (fields : Fields Part) (f : Field) :
    f.read (φ pos) (fields.map (Part.view φ)) = (f.read pos fields).relocate φ := by
  cases f with
  | required name content =>
    have hrequire : (fields.map (Part.view φ)).require name (φ pos) =
        relocateResult φ (Part.view φ) (fields.require name pos) := by
      rw [Fields.require, Fields.require, Fields.get?_map]
      cases fields.get? name <;> rfl
    rw [read, read, hrequire]
    exact ofExcept_relocateResult_bind fun p => content.read_view φ p
  | optional name content absent =>
    rw [read, read, Fields.get?_map]
    cases fields.get? name with
    | none => rfl
    | some p => exact content.read_view φ p
  | id =>
    rw [read, read, Fields.get?_map]
    cases fields.get? Field.id.name with
    | none => exact (relocate_nextId φ).symm
    | some p =>
      show NodeId.mk <$> ofExcept ((p.tree.glance φ).expectIn nodeIdRange) = _
      rw [Tree.expectIn_glance, ofExcept_relocateResult]
      exact (relocate_map ..).symm

theorem Values.read_view (pos : Position) (fields : Fields Part) (fs : List Field) :
    Values.read (φ pos) (fields.map (Part.view φ)) fs = (Values.read pos fields fs).relocate φ := by
  induction fs with
  | nil => rfl
  | cons f fs ih =>
    rw [read, read, Field.read_view, ih, relocate_bind]
    congr 1
    funext value
    rw [relocate_bind]
    rfl

/-! ## Forms and shapes -/

section Forms

variable {α : Type}

theorem Form.fieldsOf_view (form : Form α) (pos : Position) (parts : List Part) :
    form.fieldsOf (φ pos) (parts.map (Part.view φ)) =
      relocateResult φ (Fields.map (Part.view φ)) (form.fieldsOf pos parts) := by
  have htrees : (parts.map (Part.view φ)).map Part.tree =
      (parts.map Part.tree).map (Tree.glance φ) := by
    rw [List.map_map, List.map_map]
    rfl
  rw [fieldsOf, fieldsOf, htrees, expectTag_glance, ← List.map_tail]
  apply relocateResult_bind
  intro tag
  rcases form.bare with _ | bare
  · exact Fields.ofElements_view φ parts.tail
  · rcases parts.tail with _ | ⟨p, _ | ⟨q, rest⟩⟩
    · rfl
    · show (if (p.tree.glance φ).isList = true then _ else _) = relocateResult φ _ (if _ then _ else _)
      rw [Tree.isList_glance]
      split
      · rfl
      · exact Fields.ofElements_view φ [p]
    · exact Fields.ofElements_view φ (p :: q :: rest)

theorem Form.readFields_view (form : Form α) (pos : Position) (parts : List Part) :
    form.readFields (φ pos) (parts.map (Part.view φ)) =
      (form.readFields pos parts).relocate φ := by
  rw [readFields, readFields, fieldsOf_view]
  apply ofExcept_relocateResult_bind
  intro fields
  rw [Values.read_view, relocate_bind]
  congr 1
  funext values
  cases form.refuse values <;> rfl

theorem Form.read_view (form : Form α) (pos : Position) (parts : List Part) :
    form.read (φ pos) (parts.map (Part.view φ)) = (form.read pos parts).relocate φ := by
  cases parts with
  | nil =>
    cases hblank : form.blank with
    | none =>
      rw [List.map_nil, read_eq_readFields (.inr hblank), read_eq_readFields (.inr hblank)]
      exact readFields_view φ form pos []
    | some a =>
      rw [List.map_nil, read_of_blank hblank, read_of_blank hblank]
      rfl
  | cons p parts =>
    rw [read_eq_readFields (.inl (List.cons_ne_nil p parts)), List.map_cons,
      read_eq_readFields (.inl (List.cons_ne_nil _ _))]
    exact readFields_view φ form pos (p :: parts)

/-- A list is built from the views of its elements. -/
theorem Shape.read_view (shape : Shape α) (t : Tree) (parts : List Part) :
    shape.read (t.glance φ) (parts.map (Part.view φ)) = (shape.read t parts).relocate φ := by
  cases shape with
  | form f =>
    rw [read, read, Tree.expectList_glance]
    apply ofExcept_relocateResult_bind
    intro found
    exact f.read_view φ found.2 parts
  | union table =>
    rw [read, read, Tree.expectList_glance]
    apply ofExcept_relocateResult_bind
    intro found
    dsimp only
    rw [TagTable.select_glance]
    apply ofExcept_relocateResult_bind
    intro f
    exact f.read_view φ found.2 parts
  | row k make =>
    rw [read, read, Tree.expectList_glance]
    apply ofExcept_relocateResult_bind
    intro found
    rw [List.mapM_map, relocate_bind, relocate_mapM]
    rfl
  | word v make =>
    rw [read, read, Tree.expectWord_glance, ofExcept_relocateResult]
    exact (relocate_map ..).symm

end Forms

namespace Tree

/-- Lists at different places are built alike if their elements have the same views: the same nodes
come out, and the same faults at different places. -/
theorem build_list_congr {φ ψ : Position → Position} {elements others : List Tree}
    {pos p : Position} (hpos : φ pos = ψ p)
    (h : elements.map (fun t => t.toPart.view φ) = others.map (fun t => t.toPart.view ψ))
    (k : NodeKind) :
    ((list elements pos).build k).relocate φ = ((list others p).build k).relocate ψ := by
  have hglances : elements.map (glance φ) = others.map (glance ψ) := by
    have htrees := congrArg (List.map Part.tree) h
    rwa [List.map_map, List.map_map] at htrees
  have hglance : (list elements pos).glance φ = (list others p).glance ψ := by
    rw [glance_list, glance_list, List.map_take, List.map_take, hglances, hpos]
  rw [build_list, build_list, ← Shape.read_view, ← Shape.read_view, hglance, List.map_map,
    List.map_map]
  exact congrArg (k.shape.read _) h

end Tree

end CrateNotation
