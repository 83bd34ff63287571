import CrateNotation.Build.Node
import CrateNotation.Proofs.Build.Success
import CrateNotation.Proofs.Crate.Forest

/-!
# The numbered nodes of a tree

A tree that is written for a node has the lists of all numbered nodes in it.  Their outline is
found by following the schema through the tree: it has the shape of the outline of the node, and
for a label the tree that is written for the id, where one is written.

Nothing is built to find it, and nothing is checked.  Of a tree that is not written for a node of
the kind asked for, the outline says nothing.

The elements of a list are handed on as *sketches*, each with its outlines, as they are handed on
as parts when nodes are built.

## Main Definitions

* `lastValue` — the value that counts for a keyword
* `Tree.outline` — the numbered nodes in a tree that is written for a node of a kind

## Main Statements

* `get?_of_fieldsOf` — the value that counts is the one that is built
-/

namespace CrateNotation

/-! ## Values of keywords -/

/-- Whether a tree is the keyword with a given name. -/
def Tree.isKeyword (name : String) : Tree → Bool
  | leaf (.keyword text) _ => name = text
  | _ => false

/-- The value that counts for a keyword in a row of keywords and values: the last one that is
written. -/
def lastValue {β : Type} (tree : β → Tree) (name : String) : List β → Option β
  | [] | [_] => none
  | key :: value :: more =>
    (lastValue tree name more).or (if (tree key).isKeyword name then some value else none)

/-- The value that counts for a keyword among the elements of a list behind its tag. -/
def Form.valueOf {α β : Type} (form : Form α) (tree : β → Tree) (name : String)
    (rest : List β) : Option β :=
  match form.bare, rest with
  | some bare, [e] => if (tree e).isList && name = bare then some e else none
  | _, rest => lastValue tree name rest

section Values

variable {α β γ : Type}

/-- The value that counts is one of the row. -/
theorem mem_of_lastValue {tree : β → Tree} {name : String} {rest : List β} {value : β}
    (h : lastValue tree name rest = some value) : value ∈ rest := by
  induction rest using lastValue.induct with
  | case1 => cases h
  | case2 key => cases h
  | case3 key found more ih =>
    rw [lastValue, Option.or_eq_some_iff] at h
    rcases h with h | ⟨-, h⟩
    · exact List.mem_cons_of_mem _ (List.mem_cons_of_mem _ (ih h))
    · split at h
      · obtain rfl := Option.some.inj h
        exact List.mem_cons_of_mem _ List.mem_cons_self
      · cases h

theorem mem_of_valueOf {form : Form α} {tree : β → Tree} {name : String} {rest : List β}
    {value : β} (h : form.valueOf tree name rest = some value) : value ∈ rest := by
  unfold Form.valueOf at h
  split at h
  · split at h
    · obtain rfl := Option.some.inj h
      exact List.mem_cons_self
    · cases h
  · exact mem_of_lastValue h

/-- Which value counts depends on the trees alone. -/
theorem lastValue_map (f : γ → β) (tree : β → Tree) (name : String) (rest : List γ) :
    lastValue tree name (rest.map f) = (lastValue (tree ∘ f) name rest).map f := by
  induction rest using lastValue.induct with
  | case1 => rfl
  | case2 key => rfl
  | case3 key value more ih =>
    rw [List.map_cons, List.map_cons, lastValue, lastValue, ih, Option.map_or, Function.comp_apply]
    by_cases hkey : (tree (f key)).isKeyword name = true
    · rw [if_pos hkey, if_pos hkey]
      rfl
    · rw [if_neg hkey, if_neg hkey]
      rfl

theorem valueOf_map (form : Form α) (f : γ → β) (tree : β → Tree) (name : String)
    (rest : List γ) :
    form.valueOf tree name (rest.map f) = (form.valueOf (tree ∘ f) name rest).map f := by
  unfold Form.valueOf
  rcases form.bare with _ | bare
  · exact lastValue_map f tree name rest
  · rcases rest with _ | ⟨e, _ | ⟨e', rest⟩⟩
    · rfl
    · -- A single element is the value itself, if it may stand without its keyword.
      show (if ((tree (f e)).isList && name = bare) = true then some (f e) else none) =
        (if ((tree (f e)).isList && name = bare) = true then some e else none).map f
      by_cases hbare : ((tree (f e)).isList && name = bare) = true
      · rw [if_pos hbare, if_pos hbare]
        rfl
      · rw [if_neg hbare, if_neg hbare]
        rfl
    · exact lastValue_map f tree name (e :: e' :: rest)

/-- A keyword that is expected is at hand. -/
theorem Tree.eq_leaf_of_expectKeyword {t : Tree} {text : String} {pos : Position}
    (h : t.expectKeyword = .ok (text, pos)) : t = leaf (.keyword text) pos := by
  unfold expectKeyword at h
  split at h
  · obtain ⟨rfl, rfl⟩ := Prod.mk.inj (Except.ok.inj h)
    rfl
  · cases h

/-- Elements begin with a pair and go on with pairs, if they are pairs. -/
theorem Fields.ofElements_cons_cons_eq_ok_iff {tree : β → Tree} {key value : β} {more : List β}
    {fields : Fields β} :
    ofElements tree (key :: value :: more) = .ok fields ↔
      ∃ name pos others, tree key = .leaf (.keyword name) pos ∧
        ofElements tree more = .ok others ∧ fields = ⟨(name, value) :: others.pairs⟩ := by
  constructor
  · intro h
    rw [ofElements] at h
    obtain ⟨⟨name, pos⟩, hkey, h⟩ := exists_of_bind_eq_ok h
    obtain ⟨others, hmore, h⟩ := exists_of_bind_eq_ok h
    exact ⟨name, pos, others, Tree.eq_leaf_of_expectKeyword hkey, hmore, (Except.ok.inj h).symm⟩
  · rintro ⟨name, pos, others, hkey, hmore, rfl⟩
    rw [ofElements, hkey, hmore]
    rfl

/-- A single element makes no pairs. -/
theorem Fields.ofElements_singleton_ne_ok {tree : β → Tree} {key : β} {fields : Fields β} :
    ofElements tree [key] ≠ .ok fields := by
  intro h
  rw [ofElements] at h
  obtain ⟨found, -, hthrow⟩ := exists_of_bind_eq_ok h
  cases hthrow

/-- What is required is what is looked up. -/
theorem get?_of_require {fields : Fields β} {name : String} {pos : Position} {found : β}
    (h : fields.require name pos = .ok found) : fields.get? name = some found := by
  unfold Fields.require at h
  split at h
  next value hvalue =>
    obtain rfl := Except.ok.inj h
    exact hvalue
  next => cases h

/-- Among pairs that are in order, the value that is looked up is the one that counts. -/
theorem get?_of_ofElements {tree : β → Tree} {rest : List β} {fields : Fields β}
    (h : Fields.ofElements tree rest = .ok fields) (name : String) :
    fields.get? name = lastValue tree name rest := by
  induction rest using lastValue.induct generalizing fields with
  | case1 =>
    obtain rfl := Except.ok.inj h
    rfl
  | case2 key => exact absurd h Fields.ofElements_singleton_ne_ok
  | case3 key value more ih =>
    obtain ⟨text, pos, others, hkey, hmore, rfl⟩ := Fields.ofElements_cons_cons_eq_ok_iff.1 h
    have hget : others.get? name = lastValue tree name more := ih hmore
    rw [Fields.get?_cons, lastValue, hget, hkey, Tree.isKeyword]
    simp

/-- The value that counts for a keyword in a list is the one that is looked up. -/
theorem get?_of_fieldsOf {form : Form α} {pos : Position} {parts : List Part}
    {fields : Fields Part} (h : form.fieldsOf pos parts = .ok fields) (name : String) :
    fields.get? name = form.valueOf Part.tree name parts.tail := by
  unfold Form.fieldsOf at h
  obtain ⟨tag, -, h⟩ := exists_of_bind_eq_ok h
  unfold Form.valueOf
  revert h
  rcases form.bare with _ | bare
  · intro h
    exact get?_of_ofElements h name
  · rcases parts.tail with _ | ⟨p, _ | ⟨q, rest⟩⟩
    · intro h
      exact get?_of_ofElements h name
    · -- A single list is read as the value of the keyword that may be left out.
      intro h
      change (if _ then _ else _) = _ at h
      show _ = if (p.tree.isList && name = bare) = true then some p else none
      by_cases hlist : p.tree.isList = true
      · rw [if_pos hlist] at h
        obtain rfl := Except.ok.inj h
        rw [Fields.get?_cons, hlist]
        simp
      · rw [if_neg hlist] at h
        have hget := get?_of_ofElements h name
        rw [hget, if_neg (by simp [hlist])]
        rfl
    · intro h
      exact get?_of_ofElements h name

/-- What is looked up is an element of the list. -/
theorem mem_of_get?_fieldsOf {form : Form α} {pos : Position} {parts : List Part}
    {fields : Fields Part} (h : form.fieldsOf pos parts = .ok fields) {name : String} {p : Part}
    (hp : p ∈ fields.get? name) : p ∈ parts := by
  rw [get?_of_fieldsOf h] at hp
  exact List.mem_of_mem_tail (mem_of_valueOf hp)

/-- In a list of trees it is one of the trees. -/
theorem get?_of_fieldsOf_toPart {form : Form α} {pos : Position} {elements : List Tree}
    {fields : Fields Part} (h : form.fieldsOf pos (elements.map Tree.toPart) = .ok fields)
    (name : String) :
    fields.get? name = (form.valueOf id name elements.tail).map Tree.toPart := by
  rw [get?_of_fieldsOf h, ← List.map_tail, valueOf_map]
  rfl

end Values

/-! ## Outlines -/

/-- An element of a list, with the outlines of the nodes that it may be written for. -/
structure Sketch where
  tree : Tree
  outline : NodeKind → Forest (Option Tree)

/-- The numbered nodes in the value of a field. -/
def Content.outline : Content → Sketch → Forest (Option Tree)
  | node k, s => s.outline k
  | orNil c, s => if s.tree.isNil then .nil else c.outline s
  | text, _ | flag, _ | word _, _ | integer _, _ | nothing _, _ => .nil

/-- The numbered nodes in a field, where `value` gives the values that count. The id is not one. -/
def Field.outline (value : String → Option Sketch) : Field → Forest (Option Tree)
  | required name content | optional name content _ => (value name).elim .nil content.outline
  | id => .nil

/-- Whether a field is the id. -/
def Field.isId : Field → Bool
  | id => true
  | required .. | optional .. => false

/-- The numbered nodes in a list with the given elements. The list itself is one if its form has an
id, and then comes after those that are written in its fields. -/
def Form.outline {α : Type} (form : Form α) (elements : List Sketch) : Forest (Option Tree) :=
  let value := fun name => form.valueOf Sketch.tree name elements.tail
  let children := Forest.flatMap (Field.outline value) form.fields
  if form.fields.any Field.isId then .node children ((value Field.id.name).map Sketch.tree)
  else children

/-- The tag of a list. -/
def tag? : List Tree → Option String
  | .leaf (.symbol text) _ :: _ => some text
  | _ => none

/-- The numbered nodes in a list that is written in a shape. -/
def Shape.outline {α : Type} (elements : List Sketch) : Shape α → Forest (Option Tree)
  | form f => f.outline elements
  | union table =>
    ((tag? (elements.map Sketch.tree)).bind table.find?).elim .nil (·.outline elements)
  | row k _ => .flatMap (·.outline k) elements
  | word .. => .nil

namespace Tree

mutual

/-- The numbered nodes in a tree that is written for a node of kind `k`. -/
def outline : Tree → (k : NodeKind) → Forest (Option Tree)
  | list elements _, k => k.shape.outline (sketches elements)
  | leaf .., _ | hole, _ => .nil

/-- The elements of a list, with the outlines of the nodes that they may be written for. -/
def sketches : List Tree → List Sketch
  | [] => []
  | t :: ts => ⟨t, outline t⟩ :: sketches ts

end

/-- A tree as an element of a list. -/
def toSketch (t : Tree) : Sketch := ⟨t, t.outline⟩

@[simp]
theorem tree_toSketch (t : Tree) : t.toSketch.tree = t := rfl

@[simp]
theorem sketches_eq_map (ts : List Tree) : sketches ts = ts.map toSketch := by
  induction ts with
  | nil => rfl
  | cons t ts ih => simp [sketches, ih, toSketch]

/-- The outline of a list is that of its shape. -/
theorem outline_list (elements : List Tree) (pos : Position) (k : NodeKind) :
    (list elements pos).outline k = k.shape.outline (elements.map toSketch) := by
  rw [outline, sketches_eq_map]

end Tree

/-- Where no value is written, there are no nodes. -/
theorem Field.outline_of_none {value : String → Option Sketch} (h : ∀ name, value name = none)
    (f : Field) : f.outline value = .nil := by
  cases f with
  | id => rfl
  | required name content => rw [Field.outline, h name, Option.elim_none]
  | optional name content absent => rw [Field.outline, h name, Option.elim_none]

/-- The empty list has no nodes in it, and is none if its form has no id. -/
theorem Form.outline_nil {α : Type} {form : Form α} (h : form.fields.any Field.isId = false) :
    form.outline [] = .nil := by
  have hvalue : ∀ name, form.valueOf Sketch.tree name [] = none := by
    intro name
    unfold Form.valueOf
    cases form.bare with
    | none => rfl
    | some bare => rfl
  have hchildren : ∀ fs : List Field,
      Forest.flatMap (Field.outline fun name => form.valueOf Sketch.tree name []) fs = .nil := by
    intro fs
    have hfield := Field.outline_of_none hvalue
    induction fs with
    | nil => rfl
    | cons f fs ih => rw [Forest.flatMap_cons, ih, hfield f, Forest.append_nil]
  unfold Form.outline
  rw [h]
  exact hchildren form.fields

/-- The values that count among the elements of a list are trees again. -/
theorem Form.outline_map_toSketch {α : Type} (form : Form α) (elements : List Tree) :
    form.outline (elements.map Tree.toSketch) =
      let value := fun name => form.valueOf id name elements.tail
      let children := Forest.flatMap
        (Field.outline fun name => (value name).map Tree.toSketch) form.fields
      if form.fields.any Field.isId then .node children (value Field.id.name) else children := by
  have hvalue : ∀ name, form.valueOf Sketch.tree name (elements.map Tree.toSketch).tail =
      (form.valueOf id name elements.tail).map Tree.toSketch := by
    intro name
    rw [← List.map_tail, valueOf_map]
    rfl
  have hid : ((form.valueOf id Field.id.name elements.tail).map Tree.toSketch).map Sketch.tree =
      form.valueOf id Field.id.name elements.tail := by
    rw [Option.map_map]
    exact Option.map_id_apply
  unfold Form.outline
  simp only [hvalue, hid]

end CrateNotation
