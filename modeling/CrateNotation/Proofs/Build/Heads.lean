import CrateNotation.Proofs.Build.Source
import CrateNotation.Proofs.Schema.Sound

/-!
# The heads of a tree

A tree that is written for a node has the lists of all nodes of unions in it, and the symbol at the
head of such a list says which node of the union it is.  The heads of these lists are found by
following the schema through the tree, in the order in which the fields of nodes are read.

Where a field is not written, or is `nil`, there may be nodes of unions for which there is no list.
They have no head, and are kept in their places.

As with outlines, nothing is built to find the heads, and nothing is checked.

## Main Definitions

* `Tree.heads` — the heads of the lists that are written for the nodes of unions
-/

namespace CrateNotation

/-- An element of a list, with the heads of the nodes that it may be written for. -/
structure Headed where
  tree : Tree
  heads : NodeKind → List (Option String)

/-- The heads in the value of a field. -/
def Content.heads : Content → Headed → List (Option String)
  | node k, s => s.heads k
  | orNil c, s => if s.tree.isNil then tagsOf c.nilDetails else c.heads s
  | text, _ | flag, _ | word _, _ | integer _, _ | nothing _, _ => []

/-- The heads in a field, where `value` gives the values that count. -/
def Field.heads (value : String → Option Headed) : Field → List (Option String)
  | required name content => (value name).elim [] content.heads
  | optional name content absent =>
    (value name).elim (optional name content absent).absentTags content.heads
  | id => []

/-- The heads in a list with the given elements. -/
def Form.heads {α : Type} (form : Form α) (elements : List Headed) : List (Option String) :=
  form.fields.flatMap
    (Field.heads fun name => form.valueOf Headed.tree name elements.tail)

/-- The heads in a list that is written in a shape. The list itself has one if it is written for a
node of a union. -/
def Shape.heads {α : Type} (elements : List Headed) : Shape α → List (Option String)
  | form f => f.heads elements
  | union table =>
    let tag := tag? (elements.map Headed.tree)
    tag :: (tag.bind table.find?).elim [] (·.heads elements)
  | row k _ => elements.flatMap (·.heads k)
  | word .. => []

namespace Tree

mutual

/-- The heads of the lists that are written for nodes of unions, in a tree that is written for a
node of kind `k`. -/
def heads : Tree → (k : NodeKind) → List (Option String)
  | list elements _, k => k.shape.heads (headed elements)
  | leaf .., _ | hole, _ => []

/-- The elements of a list, with the heads of the nodes that they may be written for. -/
def headed : List Tree → List Headed
  | [] => []
  | t :: ts => ⟨t, heads t⟩ :: headed ts

end

/-- A tree as an element of a list. -/
def toHeaded (t : Tree) : Headed := ⟨t, t.heads⟩

@[simp]
theorem headed_eq_map (ts : List Tree) : headed ts = ts.map toHeaded := by
  induction ts with
  | nil => rfl
  | cons t ts ih => simp [headed, ih, toHeaded]

/-- The heads in a list are those of its shape. -/
theorem heads_list (elements : List Tree) (pos : Position) (k : NodeKind) :
    (list elements pos).heads k = k.shape.heads (elements.map toHeaded) := by
  rw [heads, headed_eq_map]

end Tree

/-- The values that count among the elements of a list are trees again. -/
theorem Form.heads_map_toHeaded {α : Type} (form : Form α) (elements : List Tree) :
    form.heads (elements.map Tree.toHeaded) =
      form.fields.flatMap
        (Field.heads fun name => (form.valueOf id name elements.tail).map Tree.toHeaded) := by
  unfold Form.heads
  congr 2
  funext name
  rw [← List.map_tail, valueOf_map]
  rfl

/-- In the empty list no field is written. -/
theorem Form.heads_nil {α : Type} (form : Form α) :
    form.heads [] = form.fields.flatMap Field.absentTags := by
  have hvalue : (fun name => form.valueOf Headed.tree name []) = fun _ => none := by
    funext name
    unfold Form.valueOf
    cases form.bare <;> rfl
  unfold Form.heads
  rw [List.tail_nil, hvalue]
  congr 1
  funext f
  cases f <;> rfl

end CrateNotation
