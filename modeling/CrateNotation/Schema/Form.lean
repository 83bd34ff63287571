import CrateNotation.Schema.Kind
import CrateNotation.Schema.TagTable

/-!
# Forms

A node is written as a list: a tag, and then fields, each a keyword and a value.  The form of a
node lists its fields, in the order in which they are read, and says how a node is made of their
values.  The order of reading has nothing to do with the order of writing; it decides which of two
mistakes is reported, and which of two nodes is numbered first.

Forms are data.  What they mean is said once, where nodes are built, and holds of all of them.

## Main Definitions

* `Content` — what the value of a field may be
* `Field` — a field of a form
* `Values` — the values of the fields of a form
* `Form` — how a node is written
* `Shape` — the ways in which the nodes of a kind are written
-/

namespace CrateNotation

/-- A range of integers, both ends included, with a name for messages. -/
structure IntRange where
  what : String
  lo : Int
  hi : Int

/-- How messages name a range. -/
def IntRange.describe (r : IntRange) : String :=
  s!"{r.what} in {r.lo}..{r.hi}"

/-- What the value of a field may be. -/
inductive Content where
  /-- A string. -/
  | text
  /-- The symbol `true` or `false`. -/
  | flag
  /-- A symbol of a vocabulary. -/
  | word (v : Vocabulary)
  /-- A number in a range. -/
  | integer (range : IntRange)
  /-- An empty list, of things that are not accepted yet. -/
  | nothing (what : String)
  /-- A node. -/
  | node (k : NodeKind)
  /-- Either `nil` or something else. -/
  | orNil (c : Content)

/-- What values of fields are read as. -/
@[reducible]
def Content.Value : Content → Type
  | text => String
  | flag => Bool
  | word v => v.Word
  | integer _ => Int
  | nothing _ => Unit
  | node k => k.Value
  | orNil c => Option c.Value

/-- A field of a form. -/
inductive Field where
  /-- A field that must be written. -/
  | required (name : String) (content : Content)
  /-- A field that stands for `absent` where it is not written. -/
  | optional (name : String) (content : Content) (absent : content.Value)
  /-- The id of the node. Where it is not written, the next id of the session is taken. -/
  | id

namespace Field

/-- What a field is read as. -/
@[reducible]
def Value : Field → Type
  | required _ content | optional _ content _ => content.Value
  | id => NodeId

/-- The keyword that a field is written with. -/
def name : Field → String
  | required name _ | optional name _ _ => name
  | id => "id"

end Field

/-- The values of the fields of a form. -/
@[reducible]
def Values : List Field → Type
  | [] => Unit
  | f :: fs => f.Value × Values fs

/-- How a node is written. -/
structure Form (α : Type) where
  /-- The symbol at the head of the list. -/
  tag : String
  /-- The fields in the order in which they are read. -/
  fields : List Field
  /-- The node that the values of the fields make. -/
  make : Values fields → α
  /-- The node that the empty list stands for, if it stands for one. -/
  blank : Option α := none
  /-- The field that may stand without its keyword, if its value is a list and no field is
  written beside it. -/
  bare : Option String := none
  /-- What is needed and what was found instead, where values do not go together. -/
  refuse : Values fields → Option (String × String) := fun _ => none

/-- The same form, for what a node is turned into by `f`. -/
def Form.map {α β : Type} (f : α → β) (form : Form α) : Form β where
  tag := form.tag
  fields := form.fields
  make := f ∘ form.make
  blank := form.blank.map f
  bare := form.bare
  refuse := form.refuse

/-- The ways in which the nodes of a kind are written. -/
inductive Shape (α : Type) where
  /-- In one form. -/
  | form (form : Form α)
  /-- In one of the forms that a table lists by their tags. -/
  | union (table : TagTable (Form α))
  /-- As a list of nodes of another kind. -/
  | row (k : NodeKind) (make : List k.Value → α)
  /-- As a word. -/
  | word (v : Vocabulary) (make : v.Word → α)

end CrateNotation
