import CrateNotation.Text.Word

/-!
# Decimal numerals

A numeral is an optional minus sign and one or more of the digits `0` to `9`.  Zeros may lead, and
zero may have a sign.  There is no bound on a numeral as such; whoever asks for its value accepts
at most `digitLimit` digits.

## Main Definitions

* `Numeral` — sign and digits
* `Numeral.ofText?` — reads a whole text
* `Numeral.value` — the integer that a numeral stands for
-/

namespace CrateNotation.Text

/-- A written integer. -/
structure Numeral where
  /-- Whether a minus sign stands in front. -/
  negative : Bool
  /-- The digits from the most significant one on, zeros in front included. -/
  digits : List Char

namespace Numeral

/-- The greatest number of digits whose value is worked out. -/
def digitLimit : Nat := 4300

/-- The natural number that digits stand for in base ten. -/
def natValue (digits : List Char) : Nat :=
  digits.foldl (fun n d => 10 * n + (d.toNat - '0'.toNat)) 0

/-- The integer that a numeral stands for. -/
def value (n : Numeral) : Int :=
  if n.negative then -(natValue n.digits : Int) else natValue n.digits

/-- Digits on their own are a numeral if there are any and nothing else. -/
def ofDigits? (negative : Bool) (digits : List Char) : Option Numeral :=
  if digits ≠ [] ∧ digits.all isAsciiDigit then some ⟨negative, digits⟩ else none

/-- The numeral that a whole text spells. -/
def ofText? : List Char → Option Numeral
  | '-' :: digits => ofDigits? true digits
  | digits => ofDigits? false digits

end Numeral

end CrateNotation.Text
