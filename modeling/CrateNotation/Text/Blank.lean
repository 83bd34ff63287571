import CrateNotation.Text.RangeTable

/-!
# Blank characters

The characters that may stand between tokens without meaning anything: the space, the line and
paragraph separators, and the control characters that move the writing position or separate
records.

## Main Definitions

* `isBlank` — the class of blank characters
-/

namespace CrateNotation.Text

/-- Code points of the blank characters. -/
def blankTable : RangeTable :=
  [(0x0009, 0x000D), (0x001C, 0x0020), (0x0085, 0x0085), (0x00A0, 0x00A0), (0x1680, 0x1680),
    (0x2000, 0x200A), (0x2028, 0x2029), (0x202F, 0x202F), (0x205F, 0x205F), (0x3000, 0x3000)]

theorem blankTable_rising : blankTable.Rising := by decide

/-- A character that separates tokens and has no other meaning. -/
def isBlank (c : Char) : Bool :=
  blankTable.covers c.toNat

end CrateNotation.Text
