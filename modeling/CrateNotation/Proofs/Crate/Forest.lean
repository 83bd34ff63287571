/-!
# Forests

The nodes of a crate that have ids lie inside each other and beside each other.  A forest keeps
just that: nodes in a row, each with a label and with a forest of nodes inside it.

The nodes of a forest are completed in a fixed order: a node after all nodes inside it, and nodes in
a row one after the other.  This is the order in which a recursive walk leaves them.

## Main Definitions

* `Forest` — labels, inside each other and beside each other
* `Forest.labels` — the labels in the order of completion
* `Forest.nodes` — the same, each with the forest inside
-/

namespace CrateNotation

/-- Nodes in a row, each with a label and with nodes inside it. -/
inductive Forest (α : Type) where
  | nil
  /-- A node with `children` inside it, and the nodes after it. -/
  | cons (children : Forest α) (label : α) (more : Forest α)
deriving DecidableEq

namespace Forest

variable {α β γ : Type}

/-- A single node. -/
def node (children : Forest α) (label : α) : Forest α :=
  cons children label nil

/-- Two rows of nodes, one after the other. -/
def append : Forest α → Forest α → Forest α
  | nil, g => g
  | cons children label more, g => cons children label (append more g)

instance : Append (Forest α) := ⟨append⟩

/-- The nodes that come of the elements of a list, one after the other. -/
def flatMap (f : β → Forest α) : List β → Forest α
  | [] => nil
  | b :: bs => f b ++ flatMap f bs

/-- Several rows of nodes, one after the other. -/
def join : List (Forest α) → Forest α
  | [] => nil
  | [f] => f
  | f :: g :: fs => f ++ join (g :: fs)

/-- Nodes inside a further one, if there is one. -/
def wrap (children : Forest α) : Option α → Forest α
  | none => children
  | some label => node children label

/-- The same forest with other labels. -/
def map (f : α → β) : Forest α → Forest β
  | nil => nil
  | cons children label more => cons (map f children) (f label) (map f more)

/-- The nodes in the order of completion, each with what is inside it. -/
def nodes : Forest α → List (Forest α × α)
  | nil => []
  | cons children label more => nodes children ++ (children, label) :: nodes more

/-- The labels in the order of completion. -/
def labels : Forest α → List α
  | nil => []
  | cons children label more => labels children ++ label :: labels more

@[simp]
theorem nil_append (g : Forest α) : nil ++ g = g := rfl

@[simp]
theorem cons_append (children : Forest α) (label : α) (more g : Forest α) :
    cons children label more ++ g = cons children label (more ++ g) := rfl

@[simp]
theorem append_nil (f : Forest α) : f ++ nil = f := by
  induction f with
  | nil => rfl
  | cons children label more _ ih => rw [cons_append, ih]

@[simp]
theorem flatMap_nil (f : β → Forest α) : flatMap f [] = nil := rfl

@[simp]
theorem flatMap_cons (f : β → Forest α) (b : β) (bs : List β) :
    flatMap f (b :: bs) = f b ++ flatMap f bs := rfl

theorem join_cons (f : Forest α) (fs : List (Forest α)) : join (f :: fs) = f ++ join fs := by
  cases fs with
  | nil => exact (append_nil f).symm
  | cons g fs => rfl

@[simp]
theorem map_nil (f : α → β) : map f nil = nil := rfl

@[simp]
theorem map_append (f : α → β) (g h : Forest α) : map f (g ++ h) = map f g ++ map f h := by
  induction g with
  | nil => rfl
  | cons children label more _ ih => rw [cons_append, map, map, ih, cons_append]

@[simp]
theorem map_wrap (f : α → β) (children : Forest α) (label : Option α) :
    map f (wrap children label) = wrap (map f children) (label.map f) := by
  cases label <;> rfl

@[simp]
theorem labels_nil : labels (nil : Forest α) = [] := rfl

@[simp]
theorem labels_append (f g : Forest α) : labels (f ++ g) = labels f ++ labels g := by
  induction f with
  | nil => rfl
  | cons children label more _ ih =>
    rw [cons_append, labels, labels, ih, List.append_assoc, List.cons_append]

@[simp]
theorem labels_wrap (children : Forest α) (label : Option α) :
    labels (wrap children label) = labels children ++ label.toList := by
  cases label with
  | none => exact (List.append_nil _).symm
  | some label => rfl

theorem labels_map (f : α → β) (g : Forest α) : labels (map f g) = (labels g).map f := by
  induction g with
  | nil => rfl
  | cons children label more ihc ihm =>
    rw [map, labels, labels, ihc, ihm, List.map_append, List.map_cons]

/-- A forest without nodes is all that other labels can make one of. -/
theorem map_eq_nil_iff {f : α → β} {g : Forest α} : map f g = nil ↔ g = nil := by
  cases g <;> simp [map]

theorem flatMap_map (f : β → Forest α) (g : γ → β) (cs : List γ) :
    flatMap f (cs.map g) = flatMap (f ∘ g) cs := by
  induction cs with
  | nil => rfl
  | cons c cs ih => rw [List.map_cons, flatMap_cons, flatMap_cons, ih, Function.comp_apply]

end Forest

end CrateNotation
