import CrateNotation.Proofs.Schema.Catalogue
import CrateNotation.Proofs.Token.Numeral

/-!
# Forms that can be written

Forms are data, and not every form that could be made up would be of use to a writer.  A tag with a
blank in it is no symbol.  If two fields had the same keyword, only the last value written for it
would ever be read.  If what may be `nil` might be `nil` for two reasons, one of them could not be
written.  And an integer with too many digits is not read at all.

A form without such faults is *regular*.  The forms of the notation are, and the words of its
vocabularies are symbols.

## Main Definitions

* `IntRange.IsReadable` — ranges of integers that do not have too many digits
* `Content.IsRegular`, `Field.IsRegular`, `Form.IsRegular` — contents, fields and forms all of whose
  values can be written

## Main Statements

* `NodeKind.isRegular_of_mem_forms` — the forms of the notation are regular
-/

namespace CrateNotation

open Text

/-! ## Names -/

/-- A name that is made of letters, with hyphens behind the first. -/
def isPlainName : List Char → Bool
  | [] => false
  | c :: rest => c.isAlpha && rest.all fun d => d.isAlpha || d == '-'

section Names

variable {name : List Char}

theorem isSymbolChar_of_mem_plainName {c : Char} (h : (c.isAlpha || c == '-') = true) :
    isSymbolChar c = true := by
  rcases Bool.or_eq_true_iff.1 h with h | h
  · exact isSymbolChar_of_isSymbolStart (isSymbolStart_of_isAlpha h)
  · obtain rfl := eq_of_beq h
    simp [isSymbolChar, isSymbolPunctuation]

theorem isName_of_isPlainName (h : isPlainName name = true) : IsName name := by
  cases name with
  | nil => cases h
  | cons c rest =>
    obtain ⟨hc, hrest⟩ := Bool.and_eq_true_iff.1 h
    refine .mk (isSymbolStart_of_isAlpha hc) ?_ ?_
    · intro d hd
      exact isSymbolChar_of_mem_plainName (List.all_eq_true.1 hrest d hd)
    · rintro rfl
      cases hc

theorem isKeyword_of_isPlainName (h : isPlainName name = true) : IsKeyword name := by
  cases isName_of_isPlainName h with
  | mk start more _ =>
    exact ⟨List.cons_ne_nil _ _,
      List.forall_mem_cons.2 ⟨isSymbolChar_of_isSymbolStart start, more⟩⟩

end Names

/-- The words of a vocabulary are symbols. -/
theorem Vocabulary.isSymbol_text (v : Vocabulary) (w : v.Word) : IsSymbol (v.text w).toList := by
  have hplain : isPlainName (v.text w).toList = true ∧ (v.text w).toList ≠ nilName := by
    cases v <;> cases w <;> decide
  exact ⟨isName_of_isPlainName hplain.1, hplain.2⟩

/-! ## Values -/

/-- No integer of a range has more digits than are worked out. -/
def IntRange.IsReadable (r : IntRange) : Prop :=
  r.lo.natAbs < 10 ^ Numeral.digitLimit ∧ r.hi.natAbs < 10 ^ Numeral.digitLimit

instance (r : IntRange) : Decidable r.IsReadable :=
  inferInstanceAs (Decidable (_ ∧ _))

namespace Content

/-- Whether a value may be `nil`. -/
def isOrNil : Content → Bool
  | orNil _ => true
  | text | flag | word _ | integer _ | nothing _ | node _ => false

/-- The integers in a value are readable, and `nil` has one meaning. -/
def IsRegular : Content → Prop
  | integer range => range.IsReadable
  | orNil c => c.isOrNil = false ∧ c.IsRegular
  | text | flag | word _ | nothing _ | node _ => True

instance decidableIsRegular : (c : Content) → Decidable c.IsRegular
  | integer range => inferInstanceAs (Decidable range.IsReadable)
  | orNil c =>
    have := decidableIsRegular c
    inferInstanceAs (Decidable (c.isOrNil = false ∧ c.IsRegular))
  | text | flag | word _ | nothing _ | node _ => inferInstanceAs (Decidable True)

end Content

namespace Field

/-- The value of a field is regular. -/
def IsRegular : Field → Prop
  | required _ content | optional _ content _ => content.IsRegular
  | id => nodeIdRange.IsReadable

instance : (f : Field) → Decidable f.IsRegular
  | required _ content | optional _ content _ => inferInstanceAs (Decidable content.IsRegular)
  | id => inferInstanceAs (Decidable nodeIdRange.IsReadable)

end Field

/-- The tag of a form is a symbol, and its fields are regular and have keywords of their own. -/
structure Form.IsRegular {α : Type} (form : Form α) : Prop where
  tag_ok : IsSymbol form.tag.toList
  names_ok : ∀ f ∈ form.fields, IsKeyword f.name.toList
  names_distinct : (form.fields.map Field.name).Nodup
  fields_ok : ∀ f ∈ form.fields, f.IsRegular

/-- The forms of the notation are regular. -/
theorem NodeKind.isRegular_of_mem_forms (k : NodeKind) {form : Form k.Value}
    (h : form ∈ k.forms) : form.IsRegular := by
  have hnames : ∀ k ∈ all, ∀ form ∈ k.forms,
      (isPlainName form.tag.toList = true ∧ form.tag.toList ≠ nilName) ∧
        ∀ f ∈ form.fields, isPlainName f.name.toList = true := by
    decide +kernel
  have hfields : ∀ k ∈ all, ∀ form ∈ k.forms,
      (form.fields.map Field.name).Nodup ∧ ∀ f ∈ form.fields, f.IsRegular := by
    decide +kernel
  obtain ⟨⟨htag, hnil⟩, hkeywords⟩ := hnames k k.mem_all_kinds form h
  obtain ⟨hdistinct, hregular⟩ := hfields k k.mem_all_kinds form h
  exact
    { tag_ok := ⟨isName_of_isPlainName htag, hnil⟩
      names_ok := fun f hf => isKeyword_of_isPlainName (hkeywords f hf)
      names_distinct := hdistinct
      fields_ok := hregular }

end CrateNotation
