import CrateNotation.Schema.Forms
import CrateNotation.Error
import CrateNotation.Tree

/-!
# Reading values out of trees

Each function here expects a tree to be something and says what it means, or blames it.  Blame
names what was needed and describes what was found, at the tree found.  A hole cannot be blamed
for being something else, since it is nowhere; it is a fault of its own.

## Main Definitions

* `Fault.blame` — the fault of a tree that is not what was needed
* `Tree.expectList`, `Tree.expectSymbol`, `Tree.expectKeyword`, `Tree.expectString` — a tree of one
  kind
* `Tree.expectNumber`, `Tree.expectIn`, `Tree.expectFlag`, `Tree.expectWord`, `Tree.expectNothing` —
  a value
* `headSymbol`, `expectTag` — the tag of a list
-/

namespace CrateNotation

open Text (Numeral)

namespace Fault

/-- Something else was needed at `pos` than what was found there. -/
def expected (needed found : String) (pos : Position) : Fault :=
  .invalid (.expected needed found pos)

/-- The tree `t` is not what was needed. -/
def blame (needed : String) (t : Tree) : Fault :=
  match t.describe?, t.pos? with
  | some found, some pos => expected needed found pos
  | _, _ => .hole

end Fault

namespace Tree

/-- The elements of a list, and where it is. -/
def expectList : Tree → Except Fault (List Tree × Position)
  | list elements pos => .ok (elements, pos)
  | t => .error (.blame "list" t)

/-- The text of a symbol, and where it is. -/
def expectSymbol : Tree → Except Fault (String × Position)
  | leaf (.symbol text) pos => .ok (text, pos)
  | t => .error (.blame "symbol" t)

/-- The name of a keyword, and where it is. -/
def expectKeyword : Tree → Except Fault (String × Position)
  | leaf (.keyword name) pos => .ok (name, pos)
  | t => .error (.blame "keyword" t)

/-- What a string stands for. -/
def expectString : Tree → Except Fault String
  | leaf (.string text) _ => .ok text
  | t => .error (.blame "string" t)

/-- The integer that a number stands for, and where it is. The text of a number that was not read
from a text need not be a numeral. -/
def expectNumber : Tree → Except Fault (Int × Position)
  | leaf (.number text) pos =>
    match Numeral.ofText? text.toList with
    | none => .error (.expected "valid number" text pos)
    | some numeral =>
      if numeral.digits.length > Numeral.digitLimit then
        .error (.tooManyDigits numeral.digits.length)
      else .ok (numeral.value, pos)
  | t => .error (.blame "number" t)

/-- The integer that a number stands for, if it lies in a range. -/
def expectIn (range : IntRange) (t : Tree) : Except Fault Int := do
  let (value, pos) ← t.expectNumber
  if range.lo ≤ value ∧ value ≤ range.hi then return value
  else throw (.expected range.describe (toString value) pos)

/-- What the symbols `true` and `false` stand for. -/
def expectFlag (t : Tree) : Except Fault Bool := do
  let (text, pos) ← t.expectSymbol
  if text = "true" then return true
  else if text = "false" then return false
  else throw (.expected "true or false" text pos)

/-- The word of a vocabulary that a symbol is. -/
def expectWord (v : Vocabulary) (t : Tree) : Except Fault v.Word := do
  let (text, pos) ← t.expectSymbol
  match v.find? text with
  | some word => return word
  | none => throw (.expected v.listing text pos)

/-- Nothing, from an empty list. The first element of another list is blamed. -/
def expectNothing (what : String) (t : Tree) : Except Fault Unit := do
  match (← t.expectList).1 with
  | [] => return ()
  | first :: _ => throw (.blame s!"empty {what} list" first)

end Tree

/-- The symbol at the head of a list at `pos`, and where it is. -/
def headSymbol (needed : String) (pos : Position) : List Tree → Except Fault (String × Position)
  | [] => .error (.expected needed "empty list" pos)
  | .leaf (.symbol text) pos :: _ => .ok (text, pos)
  | head :: _ => .error (.blame needed head)

/-- The symbol `tag` at the head of a list at `pos`, and where it is. -/
def expectTag (tag : String) (pos : Position) (elements : List Tree) :
    Except Fault (String × Position) := do
  let (text, pos) ← headSymbol tag pos elements
  if text = tag then return (text, pos) else throw (.expected tag text pos)

/-- What a table has for the symbol at the head of a list at `pos`. -/
def TagTable.select {β : Type} (table : TagTable β) (pos : Position) (elements : List Tree) :
    Except Fault β := do
  let (text, pos) ← headSymbol table.expected pos elements
  match table.find? text with
  | some value => return value
  | none => throw (.expected table.expected text pos)

end CrateNotation
