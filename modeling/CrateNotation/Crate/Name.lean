import CrateNotation.Crate.Location

/-!
# Identifiers, paths and visibility

A path is a row of segments, each an identifier that may have generic arguments.  Visibility says
from where a name can be reached, and its restricted form names the place by a path.

## Main Definitions

* `Ident`, `PathSegment`, `Path` — names
* `Path.display` — a path as it is written
* `Visibility` — from where a name can be reached
-/

namespace CrateNotation

/-- An identifier. -/
structure Ident where
  name : String
  span : Span := .dummy
deriving DecidableEq

/-- A list of generic arguments, of which only the place is kept. -/
structure GenericArgs where
  span : Span := .dummy
deriving DecidableEq

/-- One step of a path. -/
structure PathSegment where
  ident : Ident
  id : NodeId := .dummy
  args : Option GenericArgs := none
deriving DecidableEq

/-- A path. -/
structure Path where
  span : Span
  segments : List PathSegment
  tokens : Option TokenStream := none
deriving DecidableEq

/-- A path as it is written: the names of its segments with two colons between them. -/
def Path.display (p : Path) : String :=
  "::".intercalate (p.segments.map (·.ident.name))

/-- How the place of a restricted visibility is written. -/
inductive Restriction where
  | crate
  | super
  | inPath
deriving DecidableEq

namespace Restriction

/-- Every restriction, in the order in which messages list them. -/
def all : List Restriction := [crate, super, inPath]

/-- The word for a restriction. -/
def text : Restriction → String
  | crate => "Crate"
  | super => "Super"
  | inPath => "In"

end Restriction

/-- From where a name can be reached. -/
inductive Visibility where
  /-- From everywhere. -/
  | visible
  /-- From where the node around it can be reached. -/
  | inherited
  /-- From within the place that a path names. -/
  | restricted (path : Path) (shorthand : Restriction) (span : Span)
deriving DecidableEq

/-- The tag that a visibility is written with. -/
def Visibility.tag : Visibility → String
  | visible => "Public"
  | inherited => "Inherited"
  | restricted .. => "Restricted"

end CrateNotation
