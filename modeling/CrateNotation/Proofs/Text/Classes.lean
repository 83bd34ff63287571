import CrateNotation.Text.Blank
import CrateNotation.Text.Word

/-!
# How the character classes lie to each other

The rules of the lexer are told apart by the first character of a piece of text.  That works
because the classes of these characters do not overlap where two rules would compete: no blank is
a symbol character, no character that has a rule of its own is either of them, and no digit that
numbers are written with begins a symbol.

The only overlap left is the minus sign, which begins symbols and numbers.
-/

namespace CrateNotation.Text

variable {c : Char}

/-! ### Digits -/

/-- The digits that numbers are written with, by code point. -/
theorem isAsciiDigit_iff : isAsciiDigit c = true ↔ 0x30 ≤ c.toNat ∧ c.toNat ≤ 0x39 := by
  simp only [isAsciiDigit, Char.isDigit, Bool.and_eq_true, decide_eq_true_eq, ge_iff_le,
    UInt32.le_iff_toNat_le]
  rfl

theorem isWord_of_isAsciiDigit (h : isAsciiDigit c = true) : isWord c = true := by
  rw [isAsciiDigit_iff] at h
  rw [isWord_ascii (by omega)]
  exact Or.inl h

theorem isDecimalDigit_of_isAsciiDigit (h : isAsciiDigit c = true) : isDecimalDigit c = true := by
  rw [isAsciiDigit_iff] at h
  exact (RangeTable.covers_iff decimalDigitTable_rising).2
    ⟨(0x30, 0x39), by simp [decimalDigitTable], h⟩

theorem isSymbolChar_of_isAsciiDigit (h : isAsciiDigit c = true) : isSymbolChar c = true := by
  simp [isSymbolChar, isWord_of_isAsciiDigit h]

/-- Where a symbol or a keyword stops, a number stops as well. -/
theorem isAsciiDigit_of_not_isSymbolChar (h : isSymbolChar c = false) :
    isAsciiDigit c = false := by
  rw [Bool.eq_false_iff]
  intro hd
  have hs := isSymbolChar_of_isAsciiDigit hd
  rw [h] at hs
  exact Bool.false_ne_true hs

/-- The punctuation of operators is apart from word characters. -/
theorem isSymbolPunctuation_of_isWord (h : isWord c = true) : isSymbolPunctuation c = false := by
  rw [Bool.eq_false_iff]
  intro hp
  simp only [isSymbolPunctuation, decide_eq_true_eq, List.mem_cons, List.not_mem_nil,
    or_false] at hp
  rcases hp with rfl | rfl | rfl | rfl | rfl | rfl | rfl | rfl | rfl | rfl <;>
    exact absurd h (by decide)

/-- A digit begins numbers and never symbols. -/
theorem isSymbolStart_of_isAsciiDigit (h : isAsciiDigit c = true) : isSymbolStart c = false := by
  have hword := isWord_of_isAsciiDigit h
  simp [isSymbolStart, hword, isDecimalDigit_of_isAsciiDigit h,
    isSymbolPunctuation_of_isWord hword]

/-! ### Letters -/

/-- The letters of ASCII, by code point. -/
theorem isAlpha_iff : c.isAlpha = true ↔
    0x41 ≤ c.toNat ∧ c.toNat ≤ 0x5A ∨ 0x61 ≤ c.toNat ∧ c.toNat ≤ 0x7A := by
  show (decide ('A'.val ≤ c.val ∧ c.val ≤ 'Z'.val) ||
    (decide ('a'.val ≤ c.val) && decide (c.val ≤ 'z'.val))) = true ↔ _
  rw [Bool.or_eq_true, Bool.and_eq_true, decide_eq_true_eq, decide_eq_true_eq, decide_eq_true_eq]
  rfl

/-- A letter begins symbols. -/
theorem isSymbolStart_of_isAlpha (h : c.isAlpha = true) : isSymbolStart c = true := by
  rw [isAlpha_iff] at h
  have hword : isWord c = true := by
    rw [isWord_ascii (by omega)]
    omega
  have hdigits : ∀ n < 0x80, 0x3A ≤ n → decimalDigitTable.covers n = false := by decide +kernel
  have hdigit : isDecimalDigit c = false := hdigits c.toNat (by omega) (by omega)
  simp [isSymbolStart, hword, hdigit]

/-! ### Blanks -/

/-- The two tables have no code point in common. -/
theorem wordTable_covers_blank : ∀ r ∈ blankTable, ∀ k < r.2 + 1 - r.1,
    wordTable.covers (r.1 + k) = false := by
  decide +kernel

theorem isWord_of_isBlank (h : isBlank c = true) : isWord c = false := by
  -- The range of the blank is one of few, and so is the place of the blank in it.
  obtain ⟨r, hr, hlo, hhi⟩ := (RangeTable.covers_iff blankTable_rising).1 h
  have hk := wordTable_covers_blank r hr (c.toNat - r.1) (by omega)
  rwa [Nat.add_sub_cancel' hlo] at hk

/-- A blank ends whatever symbol, keyword or number stands before it. -/
theorem isSymbolChar_of_isBlank (h : isBlank c = true) : isSymbolChar c = false := by
  rw [Bool.eq_false_iff]
  intro hs
  simp only [isSymbolChar, isWord_of_isBlank h, isSymbolPunctuation, Bool.false_or, Bool.or_eq_true,
    decide_eq_true_eq, beq_iff_eq, List.mem_cons, List.not_mem_nil, or_false] at hs
  rcases hs with (rfl | rfl | rfl | rfl | rfl | rfl | rfl | rfl | rfl | rfl) | rfl <;>
    exact absurd h (by decide)

theorem isBlank_of_isSymbolChar (h : isSymbolChar c = true) : isBlank c = false := by
  rw [Bool.eq_false_iff]
  intro hb
  rw [isSymbolChar_of_isBlank hb] at h
  exact Bool.false_ne_true h

/-! ### Decimal digits -/

/-- No blank is a decimal digit. -/
theorem isBlank_of_isDecimalDigit (h : isDecimalDigit c = true) : isBlank c = false := by
  rw [Bool.eq_false_iff]
  intro hb
  -- The range of the blank is one of few, and so is the place of the blank in it.
  have hkey : ∀ r ∈ blankTable, ∀ k < r.2 + 1 - r.1,
      decimalDigitTable.covers (r.1 + k) = false := by decide +kernel
  obtain ⟨r, hr, hlo, hhi⟩ := (RangeTable.covers_iff blankTable_rising).1 hb
  have hk := hkey r hr (c.toNat - r.1) (by omega)
  rw [Nat.add_sub_cancel' hlo] at hk
  exact Bool.false_ne_true (hk.symm.trans h)

/-- Decimal digits begin no symbols. -/
theorem isSymbolStart_of_isDecimalDigit (h : isDecimalDigit c = true) :
    isSymbolStart c = false := by
  have hpunctuation : isSymbolPunctuation c = false := by
    rw [Bool.eq_false_iff]
    intro hp
    simp only [isSymbolPunctuation, decide_eq_true_eq, List.mem_cons, List.not_mem_nil,
      or_false] at hp
    rcases hp with rfl | rfl | rfl | rfl | rfl | rfl | rfl | rfl | rfl | rfl <;>
      exact absurd h (by decide)
  rw [isSymbolStart, h, hpunctuation, Bool.not_true, Bool.and_false, Bool.or_false]

/-! ### Characters with a rule of their own -/

/-- The characters that begin a comment, a parenthesis, a keyword or a string. -/
def isMark (c : Char) : Bool :=
  c ∈ [';', '(', ')', ':', '"']

theorem isSymbolChar_of_isMark (h : isMark c = true) : isSymbolChar c = false := by
  simp only [isMark, decide_eq_true_eq, List.mem_cons, List.not_mem_nil, or_false] at h
  rcases h with rfl | rfl | rfl | rfl | rfl <;> decide

theorem isMark_of_isSymbolChar (h : isSymbolChar c = true) : isMark c = false := by
  rw [Bool.eq_false_iff]
  intro hm
  rw [isSymbolChar_of_isMark hm] at h
  exact Bool.false_ne_true h

theorem isMark_of_isDecimalDigit (h : isDecimalDigit c = true) : isMark c = false := by
  rw [Bool.eq_false_iff]
  intro hm
  simp only [isMark, decide_eq_true_eq, List.mem_cons, List.not_mem_nil, or_false] at hm
  rcases hm with rfl | rfl | rfl | rfl | rfl <;> exact absurd h (by decide)

end CrateNotation.Text
