import CrateNotation.Build.Fields
import CrateNotation.Build.Session

/-!
# From trees to nodes

A node of any kind is built from a tree by following the shape of the kind.  The rules are the same
for every kind; what differs is in the schema.

1. The tree must be a list, and its head must be the tag of the form.  A union chooses the form by
   the tag first.
2. All that stands behind the tag must be pairs of keywords and values.
3. The fields of the form are read in its order.  Values of fields that the form does not have, or
   that are overridden, are never looked at.
4. Values that do not go together are refused, and blamed on the list.

Building is by recursion on the tree.  The elements of a list are handed on as *parts*, each with
the nodes that can be built from it, so that the rules themselves are not recursive and a node is
built only when a field asks for it.

## Main Definitions

* `Part` — an element of a list with what can be built from it
* `Content.read`, `Field.read`, `Form.read`, `Shape.read` — the rules
* `Tree.build` — the node of a kind that a tree is written for
-/

namespace CrateNotation

/-- An element of a list, with the nodes that can be built from it. -/
structure Part where
  tree : Tree
  build : (k : NodeKind) → Build k.Value

/-- The value of a field. -/
def Content.read : (c : Content) → Part → Build c.Value
  | text, p => .ofExcept p.tree.expectString
  | flag, p => .ofExcept p.tree.expectFlag
  | word v, p => .ofExcept (p.tree.expectWord v)
  | integer range, p => .ofExcept (p.tree.expectIn range)
  | nothing what, p => .ofExcept (p.tree.expectNothing what)
  | node k, p => p.build k
  | orNil c, p => if p.tree.isNil then pure none else some <$> c.read p

/-- What a field is read as, in a list at `pos` with the given fields. -/
def Field.read (pos : Position) (fields : Fields Part) : (f : Field) → Build f.Value
  | required name content => do content.read (← Build.ofExcept (fields.require name pos))
  | optional name content absent =>
    match fields.get? name with
    | some p => content.read p
    | none => pure absent
  | id =>
    match fields.get? id.name with
    | some p => NodeId.mk <$> Build.ofExcept (p.tree.expectIn nodeIdRange)
    | none => Build.nextId

/-- What the fields of a form are read as, one after the other. -/
def Values.read (pos : Position) (fields : Fields Part) : (fs : List Field) → Build (Values fs)
  | [] => pure ()
  | f :: fs => do
    let value ← f.read pos fields
    let values ← Values.read pos fields fs
    return (value, values)

/-- The fields that are written in a list at `pos`, whose tag must be that of the form. -/
def Form.fieldsOf {α : Type} (form : Form α) (pos : Position) (parts : List Part) :
    Except Fault (Fields Part) := do
  let _ ← expectTag form.tag pos (parts.map Part.tree)
  match form.bare, parts.tail with
  | some name, [p] =>
    if p.tree.isList then return ⟨[(name, p)]⟩ else Fields.ofElements Part.tree [p]
  | _, rest => Fields.ofElements Part.tree rest

/-- The node that a list at `pos` is written for in a given form. -/
def Form.read {α : Type} (form : Form α) (pos : Position) (parts : List Part) : Build α :=
  match parts, form.blank with
  | [], some node => pure node
  | parts, _ => do
    let fields ← Build.ofExcept (form.fieldsOf pos parts)
    let values ← Values.read pos fields form.fields
    match form.refuse values with
    | some (needed, found) => throw (.expected needed found pos)
    | none => return form.make values

/-- The node that the tree `t` is written for, where `parts` are its elements if it is a list. -/
def Shape.read {α : Type} (t : Tree) (parts : List Part) : Shape α → Build α
  | form f => do
    let (_, pos) ← Build.ofExcept t.expectList
    f.read pos parts
  | union table => do
    let (elements, pos) ← Build.ofExcept t.expectList
    let f ← Build.ofExcept (table.select pos elements)
    f.read pos parts
  | row k make => do
    let _ ← Build.ofExcept t.expectList
    let nodes ← parts.mapM (·.build k)
    return make nodes
  | word v make => make <$> Build.ofExcept (t.expectWord v)

namespace Tree

mutual

/-- The node of kind `k` that a tree is written for. -/
def build : Tree → (k : NodeKind) → Build k.Value
  | leaf l pos, k => k.shape.read (leaf l pos) []
  | list elements pos, k => k.shape.read (list elements pos) (parts elements)
  | hole, k => k.shape.read hole []

/-- The elements of a list, with the nodes that can be built from them. -/
def parts : List Tree → List Part
  | [] => []
  | t :: ts => ⟨t, build t⟩ :: parts ts

end

/-- A tree as an element of a list. -/
def toPart (t : Tree) : Part := ⟨t, t.build⟩

@[simp]
theorem tree_toPart (t : Tree) : t.toPart.tree = t := rfl

@[simp]
theorem build_toPart (t : Tree) : t.toPart.build = t.build := rfl

/-- The elements of a list are the trees of its parts. -/
theorem map_tree_map_toPart (ts : List Tree) : (ts.map toPart).map Part.tree = ts := by
  rw [List.map_map]
  exact List.map_id ts

@[simp]
theorem parts_eq_map (ts : List Tree) : parts ts = ts.map toPart := by
  induction ts with
  | nil => rfl
  | cons t ts ih => simp [parts, ih, toPart]

/-- A node is built from a list by the shape of its kind and from the elements of the list. -/
theorem build_list (elements : List Tree) (pos : Position) (k : NodeKind) :
    (list elements pos).build k = k.shape.read (list elements pos) (elements.map toPart) := by
  rw [build, parts_eq_map]

end Tree

end CrateNotation
