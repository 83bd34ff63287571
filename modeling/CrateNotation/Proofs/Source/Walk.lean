import CrateNotation.Source.Position
import Mathlib.Data.List.Induction

/-!
# Walking to an index

Walking over the characters of a text from its beginning leads to the position that its index has:
`Position.after_start` says where a walk over a whole text ends, and `Position.ofIndex_eq_after`
that this is the position of the index reached.
-/

namespace CrateNotation

namespace Position

variable {text : List Char}

theorem after_concat (p : Position) (text : List Char) (c : Char) :
    p.after (text ++ [c]) = (p.after text).next c := by
  rw [after_append]
  rfl

/-- The number of characters behind the last line feed of a text. -/
def lastLineLength (text : List Char) : Nat :=
  (text.reverse.takeWhile (· != '\n')).length

@[simp]
theorem lastLineLength_nil : lastLineLength [] = 0 := rfl

@[simp]
theorem lastLineLength_concat (text : List Char) (c : Char) :
    lastLineLength (text ++ [c]) = if c = '\n' then 0 else lastLineLength text + 1 := by
  by_cases hc : c = '\n' <;> simp [lastLineLength, hc]

theorem lastLineLength_le (text : List Char) : lastLineLength text ≤ text.length := by
  have h := (List.takeWhile_sublist (· != '\n') (l := text.reverse)).length_le
  rwa [List.length_reverse] at h

/-- A walk from the beginning over a text counts its bytes, its line feeds, and the characters
behind the last line feed. -/
theorem after_start (text : List Char) :
    start.after text = ⟨utf8Length text, 1 + text.count '\n', lastLineLength text + 1⟩ := by
  induction text using List.reverseRecOn with
  | nil => rfl
  | append_singleton text c ih =>
    rw [after_concat, ih, next]
    by_cases hc : c = '\n'
    · simp [hc, Int.add_assoc]
    · simp [hc, List.count_append, Int.add_assoc]

/-- The position of an index is where the walk over the characters before it ends. -/
theorem ofIndex_eq_after {i : Nat} (hi : i ≤ text.length) :
    ofIndex text i = start.after (text.take i) := by
  have hlength : (text.take i).length = i := List.length_take_of_le hi
  have hle := lastLineLength_le (text.take i)
  have hstart : lastLineStart (text.take i) = i - lastLineLength (text.take i) := by
    rw [lastLineStart, hlength]
    rfl
  have hcolumn : (i : Int) - lastLineStart (text.take i) = lastLineLength (text.take i) := by
    omega
  rw [after_start, ofIndex, hcolumn]

end Position

end CrateNotation
