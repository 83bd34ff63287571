import CrateNotation.Build.Expect

/-!
# The fields of a list

Behind its tag a list holds pairs of a keyword and a value.  A keyword that is written again
overrides the value written before.  Pairs are checked from left to right: a tree in the place of
a keyword must be one, and a keyword must have a value behind it.  The values themselves are not
looked at.

The elements may be trees, or anything that is found with a tree, so that what is known about an
element stays with it.

## Main Definitions

* `Fields` — pairs in the order in which they are written
* `Fields.ofElements` — the pairs that a row of elements makes
* `Fields.get?` — the value of a keyword
* `Fields.entries` — each keyword once, in the order of first writing, with its value
-/

namespace CrateNotation

/-- Pairs of a keyword's name and a value, in the order in which they are written. -/
structure Fields (β : Type) where
  pairs : List (String × β)

namespace Fields

variable {β : Type}

/-- The pairs of keywords and values that a row of elements makes, where `tree` gives the tree of
an element. -/
def ofElements (tree : β → Tree) : List β → Except Fault (Fields β)
  | [] => .ok ⟨[]⟩
  | [key] => do
    let (name, pos) ← (tree key).expectKeyword
    throw (.expected s!"value after keyword :{name}" "end of list" pos)
  | key :: value :: more => do
    let (name, _) ← (tree key).expectKeyword
    let rest ← ofElements tree more
    return ⟨(name, value) :: rest.pairs⟩

/-- The value of a keyword: the last one that is written. -/
def get? (fields : Fields β) (name : String) : Option β :=
  fields.pairs.reverse.lookup name

@[simp]
theorem get?_nil (name : String) : (⟨[]⟩ : Fields β).get? name = none := rfl

/-- A pair counts only if its keyword is not written again. -/
theorem get?_cons (pair : String × β) (more : List (String × β)) (name : String) :
    get? ⟨pair :: more⟩ name =
      (get? ⟨more⟩ name).or (if name = pair.1 then some pair.2 else none) := by
  obtain ⟨key, value⟩ := pair
  by_cases h : name = key
  · simp [get?, List.lookup_append, h]
  · simp [get?, List.lookup_append, List.lookup_cons, h, beq_eq_false_iff_ne.2 h]

/-- The value of a keyword that the list at `pos` must have. -/
def require (fields : Fields β) (name : String) (pos : Position) : Except Fault β :=
  match fields.get? name with
  | some value => .ok value
  | none => .error (.expected s!":{name} field" "missing" pos)

/-- The names of the keywords, each once, in the order of first writing. -/
def names (fields : Fields β) : List String :=
  (fields.pairs.map (·.1)).eraseDups

/-- Each keyword once, in the order of first writing, with its value. -/
def entries (fields : Fields β) : List (String × β) :=
  fields.names.filterMap fun name => (fields.get? name).map (name, ·)

end Fields

end CrateNotation
