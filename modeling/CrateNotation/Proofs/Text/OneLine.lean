import CrateNotation.Proofs.Token.Grammar
import CrateNotation.Source.Position
import CrateNotation.Text.Quoted
import Mathlib.Data.Nat.Digits.Lemmas

/-!
# Texts on one line

A text stays on one line if there is no line feed in it.  What messages are made of does: numbers are
written with digits, a text of the user is quoted with its line feeds escaped, and neither a symbol
nor a number of the notation has a line feed in it.

## Main Definitions

* `OneLine` — a text has no line feed in it

## Main Statements

* `oneLine_quoted` — a text between quotes is on one line, whatever it is
* `oneLine_describe` — so is the name of a position
-/

namespace CrateNotation

open Text

/-- There is no line feed in a text. -/
def OneLine (text : String) : Prop :=
  '\n' ∉ text.toList

instance : DecidablePred OneLine := fun text =>
  inferInstanceAs (Decidable ('\n' ∉ text.toList))

@[simp]
theorem oneLine_append {text more : String} :
    OneLine (text ++ more) ↔ OneLine text ∧ OneLine more := by
  simp [OneLine, not_or]

/-! ## Numbers -/

@[simp]
theorem oneLine_toString_nat (n : Nat) : OneLine (toString n) := by
  rw [OneLine, Nat.toString_eq_ofList_toDigits, String.toList_ofList]
  intro h
  have hdigit := Nat.isDigit_of_mem_toDigits (by decide) (by decide) h
  cases hdigit

@[simp]
theorem oneLine_toString_int (n : Int) : OneLine (toString n) := by
  cases n with
  | ofNat n => exact oneLine_toString_nat n
  | negSucc n =>
    show OneLine ("-" ++ toString (n + 1))
    exact oneLine_append.2 ⟨by decide, oneLine_toString_nat (n + 1)⟩

/-- The name of a position is on one line, even if the position lies off every text. -/
@[simp]
theorem oneLine_describe (p : Position) : OneLine p.describe := by
  unfold Position.describe
  simp only [oneLine_append, oneLine_toString_int, and_true]
  decide

/-! ## Quoted text -/

theorem not_mem_hexDigits (width n : Nat) : '\n' ∉ hexDigits width n := by
  induction width generalizing n with
  | zero => exact List.not_mem_nil
  | succ width ih =>
    have hdigit : ∀ d < 16, '\n' ≠ Nat.digitChar d := by decide
    rw [hexDigits, List.mem_append, List.mem_singleton, not_or]
    exact ⟨ih (n / 16), hdigit _ (Nat.mod_lt n (by decide))⟩

/-- The escape of a character is on one line. -/
theorem not_mem_codePointEscape (c : Char) : '\n' ∉ codePointEscape c := by
  unfold codePointEscape
  split
  · simp [not_mem_hexDigits]
  · split
    · simp [not_mem_hexDigits]
    · simp [not_mem_hexDigits]

/-- Between quotes a line feed is escaped, and no other character is written with one. -/
theorem not_mem_quotedChar {quote : Char} (hquote : quote ≠ '\n') (c : Char) :
    '\n' ∉ quotedChar quote c := by
  unfold quotedChar
  split
  next hescaped =>
    have hc : '\n' ≠ c := by
      rintro rfl
      rcases hescaped with rfl | hslash
      · exact hquote rfl
      · cases hslash
    simp [hc]
  next =>
    split
    · decide
    next hfeed =>
      split
      · decide
      · split
        · decide
        · split
          · simpa using Ne.symm hfeed
          · exact not_mem_codePointEscape c

/-- A text between quotes is on one line. -/
@[simp]
theorem oneLine_quoted (text : String) : OneLine (quoted text) := by
  have hquote : quoteFor text.toList ≠ '\n' := by
    unfold quoteFor
    split <;> decide
  unfold OneLine quoted
  rw [String.toList_ofList]
  simp [Ne.symm hquote, not_mem_quotedChar hquote]

/-! ## Texts of the notation -/

section Names

variable {text : String}

/-- A text of characters that stand in symbols is on one line. -/
theorem oneLine_of_isSymbolChar (h : ∀ c ∈ text.toList, isSymbolChar c = true) : OneLine text := by
  have hfeed : isSymbolChar '\n' = false := by decide
  intro hmem
  rw [h _ hmem] at hfeed
  cases hfeed

theorem oneLine_of_isName (h : IsName text.toList) : OneLine text :=
  oneLine_of_isSymbolChar h.isSymbolChar_of_mem

theorem oneLine_of_isKeyword (h : IsKeyword text.toList) : OneLine text :=
  oneLine_of_isSymbolChar h.2

theorem oneLine_of_isNumber (h : IsNumber text.toList) : OneLine text :=
  oneLine_of_isSymbolChar h.isSymbolChar_of_mem

end Names

end CrateNotation
