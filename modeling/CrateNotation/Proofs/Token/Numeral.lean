import CrateNotation.Proofs.Token.Grammar
import CrateNotation.Text.Numeral
import Mathlib.Data.Nat.Digits.Lemmas

/-!
# Numbers as numerals

The text of a number is a numeral, whatever its digits are.  It stands for one integer, which can be
written in many ways: zeros may lead, and zero may have a sign.  One of these ways is the decimal
expansion, in which no zeros lead.

## Main Definitions

* `Numeral.text` — a numeral as it is written
* `Numeral.Denotes` — a numeral is written for an integer
* `Numeral.decimal` — the numeral of an integer in which no zeros lead

## Main Statements

* `Numeral.ofText?_eq_some_iff` — which texts are numerals
* `Numeral.denotes_iff` — a numeral is written for its value and for nothing else
* `Numeral.ofText?_decimal`, `Numeral.value_decimal` — an integer is read from its numeral
-/

namespace CrateNotation.Text.Numeral

/-- Digits are the digits of a numeral. -/
theorem ofText?_of_isDigits {text : List Char} (h : IsDigits text) :
    Numeral.ofText? text = some ⟨false, text⟩ := by
  obtain ⟨hne, hdigits⟩ := h
  have hall : text ≠ [] ∧ text.all isAsciiDigit = true := ⟨hne, List.all_eq_true.2 hdigits⟩
  unfold Numeral.ofText?
  split
  next digits =>
    have hminus := hdigits '-' List.mem_cons_self
    cases hminus
  next => exact if_pos hall

/-- Digits behind a minus sign are the digits of a negative numeral. -/
theorem ofText?_of_minus {digits : List Char} (h : IsDigits digits) :
    Numeral.ofText? ('-' :: digits) = some ⟨true, digits⟩ :=
  if_pos ⟨h.1, List.all_eq_true.2 h.2⟩

/-- The text of a number is a numeral. -/
theorem exists_of_isNumber {text : List Char} (h : IsNumber text) :
    ∃ numeral, Numeral.ofText? text = some numeral := by
  rcases h with h | ⟨digits, rfl, hdigits⟩
  · exact ⟨_, ofText?_of_isDigits h⟩
  · exact ⟨_, ofText?_of_minus hdigits⟩

/-- A numeral as it is written. -/
def text (n : Numeral) : List Char :=
  if n.negative then '-' :: n.digits else n.digits

theorem isDigits_of_ofDigits? {negative : Bool} {digits : List Char} {n : Numeral}
    (h : ofDigits? negative digits = some n) : n = ⟨negative, digits⟩ ∧ IsDigits digits := by
  unfold ofDigits? at h
  split at h
  next hdigits =>
    exact ⟨(Option.some.inj h).symm, hdigits.1, List.all_eq_true.1 hdigits.2⟩
  next => cases h

/-- A text is a numeral if the numeral is written so. -/
theorem ofText?_eq_some_iff {text : List Char} {n : Numeral} :
    Numeral.ofText? text = some n ↔ n.text = text ∧ IsDigits n.digits := by
  constructor
  · intro h
    unfold Numeral.ofText? at h
    split at h
    · obtain ⟨rfl, hdigits⟩ := isDigits_of_ofDigits? h
      exact ⟨rfl, hdigits⟩
    · obtain ⟨rfl, hdigits⟩ := isDigits_of_ofDigits? h
      exact ⟨rfl, hdigits⟩
  · obtain ⟨_ | _, digits⟩ := n
    · rintro ⟨rfl, hdigits⟩
      exact ofText?_of_isDigits hdigits
    · rintro ⟨rfl, hdigits⟩
      exact ofText?_of_minus hdigits

theorem isNumber_text {n : Numeral} (h : IsDigits n.digits) : IsNumber n.text := by
  rw [text]
  split
  · exact .inr ⟨_, rfl, h⟩
  · exact .inl h

/-! ## Numerals of an integer -/

/-- `n.Denotes v` says that the numeral `n` is written for the integer `v`: with the digits of its
decimal expansion, any number of zeros before them, and a minus sign if it is negative. Zero may have
the sign too. -/
structure Denotes (n : Numeral) (v : Int) : Prop where
  digits_eq : ∃ zeros, n.digits = List.replicate zeros '0' ++ Nat.toDigits 10 v.natAbs
  le_zero : n.negative = true → v ≤ 0
  zero_le : n.negative = false → 0 ≤ v

theorem isDigits_toDigits (n : Nat) : IsDigits (Nat.toDigits 10 n) := by
  refine ⟨Nat.toDigits_ne_nil, ?_⟩
  intro c hc
  exact Nat.isDigit_of_mem_toDigits (by decide) (by decide) hc

theorem natValue_eq_ofDigitChars (digits : List Char) :
    natValue digits = Nat.ofDigitChars 10 digits 0 :=
  Nat.ofDigitChars_eq_foldl.symm

theorem natValue_toDigits (n : Nat) : natValue (Nat.toDigits 10 n) = n := by
  rw [natValue_eq_ofDigitChars]
  exact Nat.ofDigitChars_ten_toDigits

/-- Zeros in front make no difference. -/
theorem natValue_zeros_append (zeros : Nat) (digits : List Char) :
    natValue (List.replicate zeros '0' ++ digits) = natValue digits := by
  induction zeros with
  | zero => rfl
  | succ zeros ih => exact ih

/-- A digit is written as itself. -/
theorem toDigits_of_isAsciiDigit {c : Char} (h : isAsciiDigit c = true) :
    Nat.toDigits 10 (c.toNat - '0'.toNat) = [c] := by
  obtain ⟨hlow, hhigh⟩ := isAsciiDigit_iff.1 h
  have hlt : c.toNat - '0'.toNat < 10 := by
    show c.toNat - 48 < 10
    omega
  rw [Nat.toDigits_of_lt_base hlt, List.singleton_inj, ← Char.toNat_inj,
    Nat.toNat_digitChar_of_lt_ten hlt]
  show 48 + (c.toNat - 48) = c.toNat
  omega

/-- Digits go on with a decimal expansion. -/
theorem toDigits_append {digits : List Char} (h : ∀ c ∈ digits, isAsciiDigit c = true) {n : Nat}
    (hn : 0 < n) : Nat.toDigits 10 n ++ digits = Nat.toDigits 10 (Nat.ofDigitChars 10 digits n) := by
  induction digits generalizing n with
  | nil => exact List.append_nil _
  | cons c digits ih =>
    obtain ⟨hc, hmore⟩ := List.forall_mem_cons.1 h
    have hlt : c.toNat - '0'.toNat < 10 := by
      have hhigh := (isAsciiDigit_iff.1 hc).2
      show c.toNat - 48 < 10
      omega
    calc Nat.toDigits 10 n ++ c :: digits
        = (Nat.toDigits 10 n ++ Nat.toDigits 10 (c.toNat - '0'.toNat)) ++ digits := by
          rw [toDigits_of_isAsciiDigit hc, List.append_assoc, List.singleton_append]
      _ = Nat.toDigits 10 (10 * n + (c.toNat - '0'.toNat)) ++ digits := by
          rw [Nat.toDigits_append_toDigits (by decide) hn hlt]
      _ = Nat.toDigits 10 (Nat.ofDigitChars 10 (c :: digits) n) := by
          rw [ih hmore (by omega), Nat.ofDigitChars_cons]

/-- Digits are zeros and then the decimal expansion of what they stand for. -/
theorem exists_zeros {digits : List Char} (h : IsDigits digits) :
    ∃ zeros, digits = List.replicate zeros '0' ++ Nat.toDigits 10 (natValue digits) := by
  obtain ⟨hne, hdigits⟩ := h
  induction digits with
  | nil => exact absurd rfl hne
  | cons c digits ih =>
    obtain ⟨hc, hmore⟩ := List.forall_mem_cons.1 hdigits
    by_cases hzero : c = '0'
    · subst hzero
      rcases digits with _ | ⟨d, digits⟩
      · exact ⟨0, rfl⟩
      · obtain ⟨zeros, hzeros⟩ := ih (List.cons_ne_nil d digits) hmore
        exact ⟨zeros + 1, congrArg ('0' :: ·) hzeros⟩
    · -- The expansion begins with the first digit that is not zero.
      have hpos : 0 < c.toNat - '0'.toNat := by
        have hlow := (isAsciiDigit_iff.1 hc).1
        have hne : c.toNat ≠ 48 := fun h => hzero (Char.toNat_inj.1 h)
        show 0 < c.toNat - 48
        omega
      refine ⟨0, ?_⟩
      rw [natValue_eq_ofDigitChars, Nat.ofDigitChars_cons, Nat.mul_zero, Nat.zero_add,
        ← toDigits_append hmore hpos, toDigits_of_isAsciiDigit hc]
      rfl

theorem natAbs_value (n : Numeral) : n.value.natAbs = natValue n.digits := by
  rw [value]
  split <;> omega

/-- A numeral is written for the integer that it stands for, and for no other. -/
theorem denotes_iff {n : Numeral} {v : Int} : n.Denotes v ↔ IsDigits n.digits ∧ n.value = v := by
  constructor
  · rintro ⟨⟨zeros, hdigits⟩, hneg, hpos⟩
    obtain ⟨hne, hall⟩ := isDigits_toDigits v.natAbs
    refine ⟨⟨?_, ?_⟩, ?_⟩
    · rw [hdigits]
      exact List.append_ne_nil_of_right_ne_nil _ hne
    · rw [hdigits]
      intro c hc
      rcases List.mem_append.1 hc with hc | hc
      · rw [List.eq_of_mem_replicate hc]
        decide
      · exact hall c hc
    · have habs : n.value.natAbs = v.natAbs := by
        rw [natAbs_value, hdigits, natValue_zeros_append, natValue_toDigits]
      rw [value] at habs ⊢
      cases hsign : n.negative with
      | true =>
        have hle := hneg hsign
        rw [hsign] at habs
        simp only [if_true] at habs ⊢
        omega
      | false =>
        have hle := hpos hsign
        rw [hsign] at habs
        simp only [if_false, Bool.false_eq_true] at habs ⊢
        omega
  · rintro ⟨hdigits, rfl⟩
    refine ⟨?_, ?_, ?_⟩
    · rw [natAbs_value]
      exact exists_zeros hdigits
    · intro hsign
      rw [value, if_pos hsign]
      omega
    · intro hsign
      rw [value, if_neg (by simp [hsign])]
      omega

/-! ## Decimal expansions -/

/-- The numeral of an integer, in which no zeros lead. -/
def decimal (n : Int) : Numeral :=
  ⟨decide (n < 0), Nat.toDigits 10 n.natAbs⟩

variable (n : Int)

theorem denotes_decimal : (decimal n).Denotes n where
  digits_eq := ⟨0, rfl⟩
  le_zero hneg := (of_decide_eq_true hneg).le
  zero_le hpos := Int.not_lt.1 (of_decide_eq_false hpos)

theorem isNumber_decimal : IsNumber (decimal n).text :=
  isNumber_text (isDigits_toDigits n.natAbs)

/-- The decimal expansion of an integer is read as it is written. -/
theorem ofText?_decimal : Numeral.ofText? (decimal n).text = some (decimal n) :=
  ofText?_eq_some_iff.2 ⟨rfl, isDigits_toDigits n.natAbs⟩

/-- It stands for the integer. -/
theorem value_decimal : (decimal n).value = n :=
  (denotes_iff.1 (denotes_decimal n)).2

/-- It has no more digits than are worked out, if the integer is not too great. -/
theorem length_decimal_le {n : Int} (h : n.natAbs < 10 ^ digitLimit) :
    (decimal n).digits.length ≤ digitLimit :=
  Nat.toDigits_length 10 n.natAbs digitLimit (by decide) h

/-- No zero leads in the decimal expansion of any other number. -/
theorem head?_toDigits {n : Nat} (h : (Nat.toDigits 10 n).head? = some '0') : n = 0 := by
  induction n using Nat.strongRecOn with
  | ind n ih =>
    rw [Nat.toDigits_eq_if (by decide)] at h
    split at h
    · exact Nat.digitChar_eq_zero.1 (Option.some.inj h)
    next hge =>
      rw [List.head?_append_of_ne_nil _ Nat.toDigits_ne_nil] at h
      have hzero := ih (n / 10) (by omega) h
      omega

/-- A decimal expansion that begins with a zero is that of zero. -/
theorem text_decimal (h : (decimal n).digits.head? = some '0') : (decimal n).text = ['0'] := by
  obtain rfl := Int.natAbs_eq_zero.1 (head?_toDigits h)
  rfl

/-- An integer is shown as its decimal expansion. -/
theorem toString_eq_decimal : toString n = String.ofList (decimal n).text := by
  rw [Int.toString_eq_repr, Int.repr_eq_if, text, decimal]
  by_cases hneg : n < 0
  · rw [if_neg (by omega), if_pos (decide_eq_true hneg), Nat.repr_eq_ofList_toDigits,
      show (-n).toNat = n.natAbs by omega]
    exact String.ofList_append.symm
  · rw [if_pos (by omega), if_neg (by simpa using hneg), Nat.repr_eq_ofList_toDigits,
      show n.toNat = n.natAbs by omega]

end CrateNotation.Text.Numeral
