import CrateNotation.Build.Node

/-!
# Reading the fields of a form

A list in a form is either blank or has fields to read.  The two are told apart here once, so that
what is proved of the fields need not be proved for the blank list again.

## Main Definitions

* `Form.readFields` — the node that a list makes whose fields are read
* `Form.readValues` — the node that given fields make
-/

namespace CrateNotation

namespace Form

variable {α : Type} {form : Form α} {pos : Position} {parts : List Part}

/-- The node that the fields of a list at `pos` make. -/
def readFields (form : Form α) (pos : Position) (parts : List Part) : Build α := do
  let fields ← Build.ofExcept (form.fieldsOf pos parts)
  let values ← Values.read pos fields form.fields
  match form.refuse values with
  | some (needed, found) => throw (.expected needed found pos)
  | none => return form.make values

/-- The node that the given fields of a list at `pos` make. -/
def readValues (form : Form α) (pos : Position) (fields : Fields Part) : Build α := do
  let values ← Values.read pos fields form.fields
  match form.refuse values with
  | some (needed, found) => throw (.expected needed found pos)
  | none => return form.make values

/-- A list makes what the fields make that are written in it. -/
theorem readFields_of_fieldsOf {fields : Fields Part} (h : form.fieldsOf pos parts = .ok fields) :
    form.readFields pos parts = form.readValues pos fields := by
  rw [readFields, h]
  rfl

/-- The empty list is blank in a form that has a node for it. -/
theorem read_of_blank {a : α} (h : form.blank = some a) : form.read pos [] = pure a := by
  unfold read
  rw [h]

/-- Every other list has its fields read. -/
theorem read_eq_readFields (h : parts ≠ [] ∨ form.blank = none) :
    form.read pos parts = form.readFields pos parts := by
  unfold read
  split
  next a hblank =>
    rcases h with h | h
    · exact absurd rfl h
    · rw [h] at hblank
      cases hblank
  next _ => rfl

end Form

end CrateNotation
