import CrateNotation.Crate.Signature

/-!
# Items and crates

A crate is a row of items.  The items accepted so far are functions.

## Main Definitions

* `Fn`, `Item`, `ItemKind` — functions as items
* `Crate` — the root
* `Crate.functions` — the functions of a crate, each with its item
-/

namespace CrateNotation

/-- Whether an associated function may be replaced. -/
inductive Defaultness where
  | default
  | final
deriving DecidableEq

namespace Defaultness

/-- Every defaultness, in the order in which messages list them. -/
def all : List Defaultness := [default, final]

/-- The word for a defaultness. -/
def text : Defaultness → String
  | default => "Default"
  | final => "Final"

end Defaultness

/-- A function. -/
structure Fn where
  sig : FnSig
  defaultness : Defaultness := .final
  generics : Generics := {}
  body : Option Block := none
deriving DecidableEq

/-- What an item is. -/
inductive ItemKind where
  | fn (fn : Fn)
deriving DecidableEq

/-- The tag that an item's kind is written with. -/
def ItemKind.tag : ItemKind → String
  | fn _ => "Fn"

/-- An item. -/
structure Item where
  id : NodeId
  ident : Ident
  kind : ItemKind
  vis : Visibility := .inherited
  span : Span := .dummy
  attrs : List Attribute := []
deriving DecidableEq

/-- A crate. -/
structure Crate where
  items : List Item
  spans : ModSpans
  id : NodeId
  attrs : List Attribute := []
  isPlaceholder : Bool := false
deriving DecidableEq

/-- The functions of a crate, each with its item. -/
def Crate.functions (c : Crate) : List (Item × Fn) :=
  c.items.filterMap fun item =>
    match item.kind with
    | .fn fn => some (item, fn)

end CrateNotation
