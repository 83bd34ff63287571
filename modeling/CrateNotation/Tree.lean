import CrateNotation.Source.Position
import CrateNotation.Text.Quoted

/-!
# Trees

Tokens are read into trees: a leaf is a symbol, a keyword, a string, a number or `nil`, and a list
holds further trees.  Trees carry no meaning yet.  A number keeps the text it was written with,
and whoever needs its value works it out.

Trees may also be put together by hand, and then hold texts that no lexer would make, or a *hole*
where an expression is still missing.  A hole has no position.

## Main Definitions

* `Leaf` — what a tree without parts says
* `Tree` — trees with positions
* `Tree.kind`, `Tree.describe?` — what messages call a tree
* `Tree.stripPositions` — a tree with all positions reset
* `Tree.isComplete` — trees without holes
-/

namespace CrateNotation

open Text (quoted)

/-- What a tree without parts says. -/
inductive Leaf where
  | symbol (text : String)
  /-- The name is without the colon. -/
  | keyword (name : String)
  /-- The text is what the literal stands for. -/
  | string (text : String)
  | number (text : String)
  | nil
deriving DecidableEq

namespace Leaf

/-- The name of a leaf's kind. -/
def kind : Leaf → String
  | symbol _ => "symbol"
  | keyword _ => "keyword"
  | string _ => "string"
  | number _ => "number"
  | nil => "nil"

/-- What messages call a leaf. -/
def describe : Leaf → String
  | symbol text => s!"symbol {text}"
  | keyword name => s!"keyword :{name}"
  | string text => s!"string {quoted text}"
  | number text => s!"number {text}"
  | nil => "nil"

end Leaf

/-- A tree of the notation. A leaf is at its token, a list at its opening parenthesis. -/
inductive Tree where
  | leaf (leaf : Leaf) (pos : Position)
  | list (elements : List Tree) (pos : Position)
  | hole

namespace Tree

/-- What holds of leaves and of holes, and of every list whose elements it holds of, holds of every
tree. -/
@[elab_as_elim, induction_eliminator]
theorem induct {motive : Tree → Prop} (leaf : ∀ l pos, motive (leaf l pos))
    (list : ∀ elements pos, (∀ t ∈ elements, motive t) → motive (list elements pos))
    (hole : motive hole) (t : Tree) : motive t :=
  @Tree.rec motive (fun ts => ∀ t ∈ ts, motive t) leaf list hole (by simp)
    (fun _ _ head tail => by simpa using ⟨head, tail⟩) t

/-- Where a tree is; a hole is nowhere. -/
def pos? : Tree → Option Position
  | leaf _ pos | list _ pos => some pos
  | hole => none

/-- The name of a tree's kind. -/
def kind : Tree → String
  | leaf l _ => l.kind
  | list .. => "list"
  | hole => "sexp"

/-- What messages call a tree; there is no word for a hole. -/
def describe? : Tree → Option String
  | leaf l _ => some l.describe
  | list [] _ => some "empty list"
  | list (_ :: _) _ => some "list"
  | hole => none

/-- Whether a tree is a list. -/
def isList : Tree → Bool
  | list .. => true
  | _ => false

/-- Whether a tree is `nil`. -/
def isNil : Tree → Bool
  | leaf .nil _ => true
  | _ => false

mutual

/-- The same tree with every position at the beginning of a text. -/
def stripPositions : Tree → Tree
  | leaf l _ => leaf l .start
  | list elements _ => list (stripAll elements) .start
  | hole => hole

/-- The same trees with every position at the beginning of a text. -/
def stripAll : List Tree → List Tree
  | [] => []
  | t :: ts => t.stripPositions :: stripAll ts

end

@[simp]
theorem stripAll_eq_map (ts : List Tree) : stripAll ts = ts.map stripPositions := by
  induction ts with
  | nil => rfl
  | cons t ts ih => simp [stripAll, ih]

mutual

/-- Whether a tree has no holes. -/
def isComplete : Tree → Bool
  | leaf .. => true
  | list elements _ => areComplete elements
  | hole => false

/-- Whether no tree of a row has holes. -/
def areComplete : List Tree → Bool
  | [] => true
  | t :: ts => t.isComplete && areComplete ts

end

@[simp]
theorem areComplete_eq_all (ts : List Tree) : areComplete ts = ts.all isComplete := by
  induction ts with
  | nil => rfl
  | cons t ts ih => simp [areComplete, ih]

mutual

/-- Whether two trees agree in everything, positions included. -/
def same : Tree → Tree → Bool
  | leaf l p, leaf m q => l = m && p = q
  | list ss p, list ts q => sameAll ss ts && p = q
  | hole, hole => true
  | _, _ => false

/-- Whether two rows of trees agree in everything. -/
def sameAll : List Tree → List Tree → Bool
  | [], [] => true
  | s :: ss, t :: ts => same s t && sameAll ss ts
  | _, _ => false

end

mutual

theorem same_iff : ∀ s t : Tree, same s t = true ↔ s = t
  | leaf .., leaf .. => by simp [same]
  | list ss _, list ts _ => by simp [same, sameAll_iff ss ts]
  | hole, hole => by simp [same]
  | leaf .., list .. | leaf .., hole | list .., leaf .. | list .., hole | hole, leaf ..
  | hole, list .. => by simp [same]

theorem sameAll_iff : ∀ ss ts : List Tree, sameAll ss ts = true ↔ ss = ts
  | [], [] => by simp [sameAll]
  | s :: ss, t :: ts => by simp [sameAll, same_iff s t, sameAll_iff ss ts]
  | [], _ :: _ | _ :: _, [] => by simp [sameAll]

end

instance : DecidableEq Tree := fun s t => decidable_of_iff _ (same_iff s t)

end Tree

end CrateNotation
