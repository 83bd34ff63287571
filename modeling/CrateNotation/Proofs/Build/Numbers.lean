import CrateNotation.Proofs.Build.Failure
import CrateNotation.Proofs.Build.Pairing
import CrateNotation.Proofs.Tree.Readings

/-!
# Numbers from text to node

A number keeps the text it is written with on its way from the lexer to the builder, and only there
is its value worked out.  On this way it means the integer that it is written for: with zeros in
front or without, with the sign of a negative number or that of zero.

Where a range is wanted, the integer is accepted if it lies in the range.  Otherwise it is shown as
its decimal expansion, however it was written.  A number that was not read from a text may have a
text that is no numeral at all, and is blamed for it.

## Main Definitions

* `Tree.NumberMeans` — what a number is taken for on its way

## Main Statements

* `head?_of_number`, `Tree.ofText_of_head?` — a text that begins with a numeral begins with a number
* `Tree.expectNumber_denotes`, `Tree.expectIn_denotes` — a number means what it is written for
* `Tree.runFrom_build_of_value` — and so does an integer literal
* `Tree.numbers_mean_values` — all of this together
-/

namespace CrateNotation

open Text (Numeral isAsciiDigit)

/-- A text that begins with a numeral, and does not go on with a digit, has a number as its first
token. -/
theorem head?_of_number {text rest : String} {tokens : List Token} (h : IsNumber text.toList)
    (hrest : ∀ c ∈ rest.toList.head?, isAsciiDigit c = false)
    (htokens : Token.ofText (text ++ rest) = .ok tokens) :
    tokens.head? = some ⟨.number, text, .start⟩ := by
  rw [Token.ofText, String.toList_append,
    lexFrom_spelling .start (.number h) hrest, String.ofList_toList] at htokens
  obtain ⟨more, -, rfl⟩ := exists_of_map_eq_ok htokens
  rfl

namespace Tree

/-- The first tree of such a text is the number. -/
theorem ofText_of_head? {options : ReadOptions} {text source : String} {pos : Position}
    {tokens : List Token} (hoption : options.requireEnd = false)
    (htokens : Token.ofText source = .ok tokens)
    (hhead : tokens.head? = some ⟨.number, text, pos⟩) :
    ofText options source = .ok (leaf (.number text) pos) := by
  obtain ⟨more, rfl⟩ := List.head?_eq_some_iff.1 hhead
  rw [ofText_of_tokens htokens, readFirst_of_not_requireEnd hoption rfl]
  rfl

variable {n : Numeral} {v : Int} {text : String}

/-- A number means the integer that it is written for. -/
theorem expectNumber_denotes (hn : n.Denotes v) (htext : n.text = text.toList)
    (hshort : n.digits.length ≤ Numeral.digitLimit) (pos : Position) :
    (leaf (.number text) pos).expectNumber = .ok (v, pos) := by
  obtain ⟨hdigits, rfl⟩ := Numeral.denotes_iff.1 hn
  rw [expectNumber, Numeral.ofText?_eq_some_iff.2 ⟨htext, hdigits⟩]
  exact if_neg (Nat.not_lt.2 hshort)

/-- It is accepted in the ranges of this integer, and elsewhere shown as its decimal expansion. -/
theorem expectIn_denotes (hn : n.Denotes v) (htext : n.text = text.toList)
    (hshort : n.digits.length ≤ Numeral.digitLimit) (pos : Position) (range : IntRange) :
    (leaf (.number text) pos).expectIn range =
      if range.lo ≤ v ∧ v ≤ range.hi then .ok v
      else .error (.expected range.describe (String.ofList (Numeral.decimal v).text) pos) := by
  obtain ⟨hdigits, rfl⟩ := Numeral.denotes_iff.1 hn
  rw [expectIn_numeral (Numeral.ofText?_eq_some_iff.2 ⟨htext, hdigits⟩),
    if_neg (Nat.not_lt.2 hshort), Numeral.toString_eq_decimal]

/-- A number whose text is no numeral is blamed. -/
theorem expectNumber_of_not_denotes (h : ∀ (n : Numeral) (v : Int), n.text = text.toList → ¬n.Denotes v)
    (pos : Position) :
    (leaf (.number text) pos).expectNumber = .error (.expected "valid number" text pos) := by
  have hnone : Numeral.ofText? text.toList = none := by
    cases hread : Numeral.ofText? text.toList with
    | none => rfl
    | some n =>
      obtain ⟨htext, hdigits⟩ := Numeral.ofText?_eq_some_iff.1 hread
      exact absurd (Numeral.denotes_iff.2 ⟨hdigits, rfl⟩) (h n n.value htext)
  rw [expectNumber, hnone]

/-- Nor is it accepted in any range. -/
theorem expectIn_of_not_denotes
    (h : ∀ (n : Numeral) (v : Int), n.text = text.toList → ¬n.Denotes v) (pos : Position)
    (range : IntRange) :
    (leaf (.number text) pos).expectIn range = .error (.expected "valid number" text pos) := by
  rw [expectIn, expectNumber_of_not_denotes h]
  rfl

/-! ## Integer literals -/

/-- An integer literal is made of the value that counts in it. -/
theorem runFrom_build_intLit {pairs : List Pair} {t : Tree}
    (h : (Pair.fields pairs).get? "value" = some t.toPart) (tagPos pos : Position) (issued : Int) :
    ((tagged "Int" tagPos pairs pos).build .litKind).runFrom issued =
      (LitKind.int <$> t.expectIn integerLiteralRange, issued) := by
  have hform : Form.intLit ∈ NodeKind.litKind.forms := .tail _ (.head _)
  have hfield : (Field.required "value" (.integer integerLiteralRange)).read pos (Pair.fields pairs) =
      Build.ofExcept (t.expectIn integerLiteralRange) := by
    rw [Field.read, Fields.require, h]
    rfl
  rw [show "Int" = Form.intLit.tag from rfl, build_tagged hform pairs, Form.readValues]
  show ((Field.read pos (Pair.fields pairs) _ >>= _ : Build _) >>= _).runFrom issued = _
  rw [hfield]
  cases t.expectIn integerLiteralRange <;> rfl

/-- That is the last one with its keyword. -/
theorem runFrom_build_of_value {before after : List Pair} {p : Pair} (hp : p.name = "value")
    (hafter : ∀ q ∈ after, q.name ≠ "value") (tagPos pos : Position) (issued : Int) :
    ((tagged "Int" tagPos (before ++ p :: after) pos).build .litKind).runFrom issued =
      (LitKind.int <$> p.value.expectIn integerLiteralRange, issued) := by
  refine runFrom_build_intLit (Fields.get?_eq_some_iff.2 ?_) tagPos pos issued
  refine ⟨before.map fun q => (q.name, q.value.toPart), after.map fun q => (q.name, q.value.toPart),
    ?_, ?_⟩
  · rw [← hp]
    exact List.map_append
  · intro pair hpair
    obtain ⟨q, hq, rfl⟩ := List.mem_map.1 hpair
    exact hafter q hq

/-! ## From text to node -/

/-- `NumberMeans text v` says that a number with this text is taken for `v` on its way from a text to a
node. -/
structure NumberMeans (text : String) (v : Int) : Prop where
  /-- A text that begins with it, and does not go on with a digit, has it as its first token. -/
  head_token : ∀ (rest : String) (tokens : List Token),
    (∀ c ∈ rest.toList.head?, isAsciiDigit c = false) → Token.ofText (text ++ rest) = .ok tokens →
      tokens.head? = some ⟨.number, text, .start⟩
  /-- The number is then the first tree that is read. -/
  first_tree : ∀ (options : ReadOptions) (rest : String) (tokens : List Token),
    options.requireEnd = false → (∀ c ∈ rest.toList.head?, isAsciiDigit c = false) →
      Token.ofText (text ++ rest) = .ok tokens →
        ofText options (text ++ rest) = .ok (leaf (.number text) .start)
  expectNumber_eq : ∀ pos : Position, (leaf (.number text) pos).expectNumber = .ok (v, pos)
  expectIn_eq : ∀ (pos : Position) (range : IntRange),
    (leaf (.number text) pos).expectIn range =
      if range.lo ≤ v ∧ v ≤ range.hi then .ok v
      else .error (.expected s!"{range.what} in {range.lo}..{range.hi}"
        (String.ofList (Numeral.decimal v).text) pos)
  /-- An integer literal is this integer, if it is one of those that there are literals of. -/
  build_eq : ∀ (before after : List Pair) (tagPos keyPos pos listPos : Position) (issued : Int),
    (∀ q ∈ after, q.name ≠ "value") →
      ((tagged "Int" tagPos (before ++ ⟨"value", keyPos, leaf (.number text) pos⟩ :: after)
        listPos).build .litKind).runFrom issued =
        (if integerLiteralRange.lo ≤ v ∧ v ≤ integerLiteralRange.hi then .ok (.int v)
          else .error (.expected integerLiteralRange.describe
            (String.ofList (Numeral.decimal v).text) pos), issued)

/-- A number that is written for an integer is taken for it. -/
theorem numberMeans_of_denotes (hn : n.Denotes v) (htext : n.text = text.toList)
    (hshort : n.digits.length ≤ Numeral.digitLimit) : NumberMeans text v := by
  have hnumber : IsNumber text.toList := htext ▸ Numeral.isNumber_text (Numeral.denotes_iff.1 hn).1
  refine ⟨fun rest tokens hrest htokens => head?_of_number hnumber hrest htokens, ?_,
    expectNumber_denotes hn htext hshort, expectIn_denotes hn htext hshort, ?_⟩
  · intro options rest tokens hoption hrest htokens
    exact ofText_of_head? hoption htokens (head?_of_number hnumber hrest htokens)
  · intro before after tagPos keyPos pos listPos issued hafter
    rw [runFrom_build_of_value rfl hafter, expectIn_denotes hn htext hshort]
    split <;> rfl

/-- Numbers mean the integers that they are written for, in a text and in an integer literal, whatever
zeros lead and even if zero has a sign. A number that is out of range is shown as a decimal expansion
in which no zeros lead. A number whose text is written for no integer is blamed for it. -/
theorem numbers_mean_values (text : String) :
    (∀ (n : Numeral) (v : Int), n.text = text.toList → n.Denotes v →
      n.digits.length ≤ Numeral.digitLimit →
        NumberMeans text v ∧
          ((Numeral.decimal v).digits.head? = some '0' → (Numeral.decimal v).text = ['0'])) ∧
    ((∀ (n : Numeral) (v : Int), n.text = text.toList → ¬n.Denotes v) → ∀ pos : Position,
      (leaf (.number text) pos).expectNumber = .error (.expected "valid number" text pos) ∧
        ∀ range : IntRange,
          (leaf (.number text) pos).expectIn range =
            .error (.expected "valid number" text pos)) :=
  ⟨fun _ v htext hn hshort => ⟨numberMeans_of_denotes hn htext hshort, Numeral.text_decimal v⟩,
    fun h pos => ⟨expectNumber_of_not_denotes h pos, expectIn_of_not_denotes h pos⟩⟩

/-- A negative number with zeros in front is the first of two, and it is taken for its value: it is a
literal, but no position. A number with a plus sign is blamed. -/
theorem numbers_mean_values_zeros :
    let tokens := [⟨.number, "-007", .start⟩, ⟨.number, "-0", ⟨5, 1, 6⟩⟩,
      ⟨.endOfInput, "", ⟨7, 1, 8⟩⟩]
    let literal := tagged "Int" ⟨1, 1, 2⟩
      [⟨"value", ⟨5, 1, 6⟩, leaf (.number "-007") ⟨12, 1, 13⟩⟩] .start
    Token.ofText ("-007" ++ " -0") = .ok tokens ∧
      tokens.head? = some ⟨.number, "-007", .start⟩ ∧
      (leaf (.number "-007") .start).expectNumber = .ok (-7, .start) ∧
      (leaf (.number "-007") .start).expectIn ⟨"position", 0, 9⟩ =
        .error (.expected "position in 0..9" "-7" .start) ∧
      (literal.build .litKind).runFrom 0 = (.ok (.int (-7)), 0) ∧
      (leaf (.number "+7") .start).expectNumber =
        .error (.expected "valid number" "+7" .start) := by
  intro tokens literal
  have htokens : Token.ofText ("-007" ++ " -0") = .ok tokens := by decide +kernel
  have hseven : NumberMeans "-007" (-7) :=
    ((numbers_mean_values "-007").1 ⟨true, ['0', '0', '7']⟩ (-7) (by decide)
      ⟨⟨2, by decide⟩, by decide, by decide⟩ (by decide)).1
  have hplus : ∀ (n : Numeral) (v : Int), n.text = "+7".toList → ¬n.Denotes v := by
    intro n v htext hn
    have hread := Numeral.ofText?_eq_some_iff.2 ⟨htext, (Numeral.denotes_iff.1 hn).1⟩
    cases hread
  have hblank : ∀ c ∈ " -0".toList.head?, isAsciiDigit c = false := by
    intro c hc
    obtain rfl : ' ' = c := Option.some.inj hc
    rfl
  refine ⟨htokens, hseven.head_token " -0" tokens hblank htokens, hseven.expectNumber_eq .start,
    ?_, ?_, ((numbers_mean_values "+7").2 hplus .start).1⟩
  · exact (hseven.expectIn_eq .start ⟨"position", 0, 9⟩).trans (by decide)
  · exact (hseven.build_eq [] [] ⟨1, 1, 2⟩ ⟨5, 1, 6⟩ ⟨12, 1, 13⟩ .start 0 nofun).trans
      (by rw [if_pos (by decide)])

end Tree

end CrateNotation
