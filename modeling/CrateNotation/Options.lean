/-!
# Options of reading and printing

Options hold only values that make sense, so nothing that takes them checks them again.  Numbers
from outside are checked where options are made of them.

## Main Definitions

* `ReadOptions` — how deep lists may nest, and whether one tree must be all
* `PrintOptions` — how far a level of nesting is indented
* `OptionError` — a number that cannot be an option
-/

namespace CrateNotation

/-- A number that cannot be an option. -/
inductive OptionError where
  /-- No list could be read within this depth. -/
  | depthNotPositive (given : Int)
  /-- There are no negative indents. -/
  | indentNegative (given : Int)
deriving DecidableEq

/-- The wording of the error. -/
def OptionError.message : OptionError → String
  | depthNotPositive given => s!"max_depth must be positive, got {given}"
  | indentNegative given => s!"indent must be non-negative, got {given}"

/-- How trees are read. -/
structure ReadOptions where
  /-- The number of lists that may lie around a token. -/
  maxDepth : Nat := 256
  /-- Whether the first tree must be followed by nothing. -/
  requireEnd : Bool := false
  maxDepth_pos : 0 < maxDepth := by decide
deriving DecidableEq

/-- Options with a given depth, if it is positive. -/
def ReadOptions.ofDepth? (maxDepth : Int) (requireEnd : Bool) : Except OptionError ReadOptions :=
  if h : 0 < maxDepth then .ok ⟨maxDepth.toNat, requireEnd, by omega⟩
  else .error (.depthNotPositive maxDepth)

/-- How trees are printed. -/
structure PrintOptions where
  /-- The number of spaces for each level of nesting. -/
  indent : Nat := 2
deriving DecidableEq

/-- Options with a given indent, if it is not negative. -/
def PrintOptions.ofIndent? (indent : Int) : Except OptionError PrintOptions :=
  if 0 ≤ indent then .ok ⟨indent.toNat⟩ else .error (.indentNegative indent)

end CrateNotation
