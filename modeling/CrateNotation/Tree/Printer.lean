import CrateNotation.Options
import CrateNotation.Text.Literal
import CrateNotation.Tree

/-!
# From trees to text

A leaf is written as its token.  A list is written on one line if it is short and holds no lists;
otherwise every element after the first begins a new line, indented by the nesting of the list.
The layout looks at the shape of a list only, never at its width.

A hole has no text, so a tree is printed only if it is complete.

## Main Definitions

* `Leaf.render` — a leaf as a token
* `Tree.render` — a tree as text, a hole as nothing
* `Tree.print` — the text of a complete tree
-/

namespace CrateNotation

open Text (escape)

/-- A leaf as a token. -/
def Leaf.render : Leaf → String
  | symbol text => text
  | keyword name => s!":{name}"
  | string text => "\"" ++ String.ofList (escape text.toList) ++ "\""
  | number text => text
  | nil => "nil"

namespace Tree

/-- The greatest number of elements of a list that is written on one line. -/
def oneLineMax : Nat := 3

/-- Whether a list with these elements is written on one line. -/
def fitsOnLine (elements : List Tree) : Bool :=
  elements.length ≤ oneLineMax && !elements.any isList

/-- What stands between the elements of a list that has `depth` lists around it. -/
def separator (options : PrintOptions) (elements : List Tree) (depth : Nat) : String :=
  if fitsOnLine elements then " "
  else "\n" ++ String.ofList (List.replicate (options.indent * (depth + 1)) ' ')

mutual

/-- The text of a tree that has `depth` lists around it. -/
def renderAt (options : PrintOptions) (depth : Nat) : Tree → String
  | leaf l _ => l.render
  | list elements _ =>
    "(" ++ (separator options elements depth).intercalate (renderParts options depth elements)
      ++ ")"
  | hole => ""

/-- The texts of the elements of a list that has `depth` lists around it. -/
def renderParts (options : PrintOptions) (depth : Nat) : List Tree → List String
  | [] => []
  | t :: ts => renderAt options (depth + 1) t :: renderParts options depth ts

end

@[simp]
theorem renderParts_eq_map (options : PrintOptions) (depth : Nat) (ts : List Tree) :
    renderParts options depth ts = ts.map (renderAt options (depth + 1)) := by
  induction ts with
  | nil => rfl
  | cons t ts ih => simp [renderParts, ih]

/-- The text of a tree. -/
def render (options : PrintOptions) (t : Tree) : String :=
  renderAt options 0 t

/-- A tree with a hole cannot be printed. -/
structure Unprintable where
deriving DecidableEq

/-- What is wrong with a tree that has a hole. -/
def Unprintable.message (_ : Unprintable) : String :=
  "Cannot print unknown node: SExp()"

/-- The text of a tree without holes. -/
def print (options : PrintOptions) (t : Tree) : Except Unprintable String :=
  if t.isComplete then .ok (t.render options) else .error ⟨⟩

end Tree

end CrateNotation
