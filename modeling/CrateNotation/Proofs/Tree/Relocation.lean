import CrateNotation.Build.Expect
import Mathlib.Tactic.Common

/-!
# Trees at other places

Positions can be changed throughout a tree, and throughout an error, without changing anything else.
To *relocate* something by `φ` is to put everything in it that is at `pos` at `φ pos`.  Resetting all
positions of a tree is one way of relocating it.

The functions that read values out of trees see little of a tree: a leaf, or of a list no more than
its first element.  What they see is the tree at a *glance*.  If a tree is seen at a glance and at
another place, the same value is read out of it, or the same fault is found in it at the other place.

## Main Definitions

* `Tree.relocate`, `Fault.relocate` — a tree, and a fault, at other places
* `Tree.glance` — what is seen of a tree that is not built
* `relocateResult` — the result of a check, with a fault at another place

## Main Statements

* `Tree.stripPositions_eq_relocate` — positions are reset by relocating
* `Tree.glance_relocate` — what is seen of a relocated tree
* `Fault.blame_glance` — what is seen of a tree is enough to blame it
-/

namespace CrateNotation

variable (φ : Position → Position)

/-! ## Errors -/

/-- The same error at another place. -/
def LexError.relocate : LexError → LexError
  | unexpectedChar found pos => unexpectedChar found (φ pos)
  | unterminatedString pos => unterminatedString (φ pos)
  | invalidEscape found pos => invalidEscape found (φ pos)
  | unexpectedEnd => unexpectedEnd

/-- The same error at another place. -/
def ParseError.relocate : ParseError → ParseError
  | unexpectedToken lexeme pos => unexpectedToken lexeme (φ pos)
  | expected needed found pos => expected needed found (φ pos)
  | unterminatedList pos => unterminatedList (φ pos)
  | unexpectedClose pos => unexpectedClose (φ pos)
  | emptyInput => emptyInput
  | nestingTooDeep limit pos => nestingTooDeep limit (φ pos)
  | lexical error => lexical (error.relocate φ)

/-- The same fault at another place. -/
def Fault.relocate : Fault → Fault
  | invalid error => invalid (error.relocate φ)
  | tooManyDigits count => tooManyDigits count
  | idsExhausted => idsExhausted
  | hole => hole

theorem LexError.relocate_id (e : LexError) : e.relocate id = e := by
  cases e <;> rfl

theorem ParseError.relocate_id (e : ParseError) : e.relocate id = e := by
  cases e with
  | lexical error => exact congrArg lexical error.relocate_id
  | _ => rfl

@[simp]
theorem Fault.relocate_id (e : Fault) : e.relocate id = e := by
  cases e with
  | invalid error => exact congrArg invalid error.relocate_id
  | _ => rfl

section Result

variable {α β γ δ : Type}

/-- What `g` makes of the result of a check, or the same fault at another place. -/
def relocateResult (g : α → β) : Except Fault α → Except Fault β
  | .ok a => .ok (g a)
  | .error e => .error (e.relocate φ)

/-- One check after another is relocated piece by piece. -/
theorem relocateResult_bind {φ : Position → Position} {g : α → γ} {h : β → δ}
    {x : Except Fault α} {f : α → Except Fault β} {f' : γ → Except Fault δ}
    (hf : ∀ a, f' (g a) = relocateResult φ h (f a)) :
    relocateResult φ g x >>= f' = relocateResult φ h (x >>= f) := by
  cases x with
  | error e => rfl
  | ok a => exact hf a

end Result

namespace Tree

/-! ## Trees -/

mutual

/-- The same tree at other places. -/
def relocate : Tree → Tree
  | leaf l pos => leaf l (φ pos)
  | list elements pos => list (relocateAll elements) (φ pos)
  | hole => hole

/-- The same trees at other places. -/
def relocateAll : List Tree → List Tree
  | [] => []
  | t :: ts => relocate t :: relocateAll ts

end

@[simp]
theorem relocateAll_eq_map (ts : List Tree) : relocateAll φ ts = ts.map (relocate φ) := by
  induction ts with
  | nil => rfl
  | cons t ts ih => rw [relocateAll, ih, List.map_cons]

/-- Positions are reset by putting everything at the beginning of a text. -/
theorem stripPositions_eq_relocate (t : Tree) :
    t.stripPositions = t.relocate fun _ => .start := by
  induction t with
  | leaf l pos => rfl
  | list elements pos ih =>
    rw [stripPositions, relocate, stripAll_eq_map, relocateAll_eq_map, List.map_congr_left ih]
  | hole => rfl

/-! ## Trees at a glance -/

/-- What is seen of a tree without building it: of a list only the first element. -/
def glance : Tree → Tree
  | leaf l pos => leaf l (φ pos)
  | list [] pos => list [] (φ pos)
  | list (t :: _) pos => list [t.glance] (φ pos)
  | hole => hole

theorem glance_list (elements : List Tree) (pos : Position) :
    (list elements pos).glance φ = list ((elements.take 1).map (glance φ)) (φ pos) := by
  cases elements with
  | nil => rw [glance, List.take_nil, List.map_nil]
  | cons t ts => rw [glance, List.take_succ_cons, List.take_zero, List.map_singleton]

/-- What is seen of a relocated tree is what is seen of the tree, at other places. -/
theorem glance_relocate (t : Tree) : (t.relocate φ).glance id = t.glance φ := by
  induction t with
  | leaf l pos => rfl
  | list elements pos ih =>
    rw [relocate, relocateAll_eq_map, glance_list, glance_list, ← List.map_take, List.map_map]
    congr 1
    apply List.map_congr_left
    intro t ht
    exact ih t (List.mem_of_mem_take ht)
  | hole => rfl

@[simp]
theorem isList_glance (t : Tree) : (t.glance φ).isList = t.isList := by
  rcases t with _ | ⟨_ | _, _⟩ | _ <;> rfl

@[simp]
theorem isNil_glance (t : Tree) : (t.glance φ).isNil = t.isNil := by
  rcases t with ⟨_ | _ | _ | _ | _, _⟩ | ⟨_ | _, _⟩ | _ <;> rfl

end Tree

/-! ## Reading values out of trees -/

namespace Fault

/-- What is seen of a tree is enough to blame it. -/
theorem blame_glance (needed : String) (t : Tree) :
    blame needed (t.glance φ) = (blame needed t).relocate φ := by
  rcases t with _ | ⟨_ | _, _⟩ | _ <;> rfl

end Fault

namespace Tree

theorem expectList_glance (t : Tree) :
    (t.glance φ).expectList =
      relocateResult φ (fun found => ((found.1.take 1).map (glance φ), φ found.2))
        t.expectList := by
  cases t with
  | leaf l pos => rfl
  | list elements pos =>
    rw [glance_list]
    rfl
  | hole => rfl

theorem expectSymbol_glance (t : Tree) :
    (t.glance φ).expectSymbol = relocateResult φ (Prod.map id φ) t.expectSymbol := by
  rcases t with ⟨_ | _ | _ | _ | _, _⟩ | ⟨_ | _, _⟩ | _ <;> rfl

theorem expectKeyword_glance (t : Tree) :
    (t.glance φ).expectKeyword = relocateResult φ (Prod.map id φ) t.expectKeyword := by
  rcases t with ⟨_ | _ | _ | _ | _, _⟩ | ⟨_ | _, _⟩ | _ <;> rfl

theorem expectString_glance (t : Tree) :
    (t.glance φ).expectString = relocateResult φ id t.expectString := by
  rcases t with ⟨_ | _ | _ | _ | _, _⟩ | ⟨_ | _, _⟩ | _ <;> rfl

theorem expectNumber_glance (t : Tree) :
    (t.glance φ).expectNumber = relocateResult φ (Prod.map id φ) t.expectNumber := by
  rcases t with ⟨_ | _ | _ | text | _, pos⟩ | ⟨_ | _, _⟩ | _
  case leaf.number =>
    rw [glance, expectNumber, expectNumber]
    cases Text.Numeral.ofText? text.toList with
    | none => rfl
    | some numeral =>
      dsimp only
      split <;> rfl
  all_goals rfl

theorem expectIn_glance (range : IntRange) (t : Tree) :
    (t.glance φ).expectIn range = relocateResult φ id (t.expectIn range) := by
  rw [expectIn, expectNumber_glance]
  apply relocateResult_bind
  intro ⟨value, pos⟩
  dsimp only [Prod.map, id]
  split <;> rfl

theorem expectFlag_glance (t : Tree) :
    (t.glance φ).expectFlag = relocateResult φ id t.expectFlag := by
  rw [expectFlag, expectSymbol_glance]
  apply relocateResult_bind
  intro ⟨text, pos⟩
  dsimp only [Prod.map, id]
  split
  · rfl
  · split <;> rfl

theorem expectWord_glance (v : Vocabulary) (t : Tree) :
    (t.glance φ).expectWord v = relocateResult φ id (t.expectWord v) := by
  rw [expectWord, expectSymbol_glance]
  apply relocateResult_bind
  intro ⟨text, pos⟩
  dsimp only [Prod.map, id]
  cases v.find? text <;> rfl

theorem expectNothing_glance (what : String) (t : Tree) :
    (t.glance φ).expectNothing what = relocateResult φ id (t.expectNothing what) := by
  rw [expectNothing, expectList_glance]
  apply relocateResult_bind
  rintro ⟨_ | ⟨first, more⟩, pos⟩
  · rfl
  · exact congrArg Except.error (Fault.blame_glance φ _ first)

end Tree

/-- The head of a list is seen at a glance. -/
theorem headSymbol_glance (needed : String) (pos : Position) (elements : List Tree) :
    headSymbol needed (φ pos) (elements.map (Tree.glance φ)) =
      relocateResult φ (Prod.map id φ) (headSymbol needed pos elements) := by
  rcases elements with _ | ⟨⟨_ | _ | _ | _ | _, _⟩ | ⟨_ | _, _⟩ | _, _⟩ <;> rfl

theorem headSymbol_take_one (needed : String) (pos : Position) (elements : List Tree) :
    headSymbol needed pos (elements.take 1) = headSymbol needed pos elements := by
  rcases elements with _ | ⟨⟨_ | _ | _ | _ | _, _⟩ | ⟨_ | _, _⟩ | _, _⟩ <;> rfl

theorem expectTag_glance (tag : String) (pos : Position) (elements : List Tree) :
    expectTag tag (φ pos) (elements.map (Tree.glance φ)) =
      relocateResult φ (Prod.map id φ) (expectTag tag pos elements) := by
  rw [expectTag, headSymbol_glance]
  apply relocateResult_bind
  intro ⟨text, pos⟩
  dsimp only [Prod.map, id]
  split <;> rfl

theorem TagTable.select_glance {β : Type} (table : TagTable β) (pos : Position)
    (elements : List Tree) :
    table.select (φ pos) ((elements.take 1).map (Tree.glance φ)) =
      relocateResult φ id (table.select pos elements) := by
  rw [select, headSymbol_glance, headSymbol_take_one]
  apply relocateResult_bind
  intro ⟨text, pos⟩
  dsimp only [Prod.map, id]
  cases table.find? text <;> rfl

end CrateNotation
