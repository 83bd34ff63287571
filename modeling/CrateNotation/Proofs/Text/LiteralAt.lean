import CrateNotation.Proofs.Text.LiteralGrammar
import Mathlib.Data.Set.Subsingleton

/-!
# String literals inside a text

A literal stands somewhere in a text: its opening mark is at some index, and what lies before this
mark or behind the closing one plays no part in reading it.  Between the marks it splits into
*pieces*, each of which stands for one character.  Most characters are spelled as themselves, and a
few need an escape.

Reading at an index finds the literal that splits in this way, if there is one.  There is never more
than one, since a mark inside a literal would have a backslash before it.  So a text that is written
as a literal is read back, wherever it is put.

## Main Definitions

* `IsPiece`, `Splits` — the pieces of a literal
* `IsLiteral` — from one index of a text to another there is a literal
* `readLiteralAt` — reading at an index

## Main Statements

* `readLiteralAt_eq_some_iff` — reading finds what splits into pieces
* `readLiteralAt_escape` — and what is written is read back
* `literals_exact` — both, with what is known of writing
-/

namespace CrateNotation.Text

/-- The characters that make an escape with the backslash before them, and what the escapes stand
for. -/
def escapes : List (Char × Char) :=
  [('n', '\n'), ('t', '\t'), ('r', '\r'), ('\\', '\\'), ('"', '"')]

/-- `IsPiece c spelling` says that `spelling` is a piece of a literal that stands for `c`. -/
inductive IsPiece : Char → List Char → Prop where
  /-- A character that is neither a mark nor a backslash stands for itself. -/
  | plain {c : Char} (mark : c ≠ '"') (backslash : c ≠ '\\') : IsPiece c [c]
  | escape {letter c : Char} (listed : (letter, c) ∈ escapes) : IsPiece c ['\\', letter]

/-- `Splits value body` says that `body` splits into pieces that stand for `value`. -/
def Splits (value body : List Char) : Prop :=
  ∃ pieces : List (Char × List Char), (∀ p ∈ pieces, IsPiece p.1 p.2) ∧
    value = pieces.map Prod.fst ∧ body = pieces.flatMap Prod.snd

/-- `IsLiteral text start stop value` says that a literal which stands for `value`, and has its opening
mark at index `start`, goes on up to index `stop`. Like reading, it does not look at the opening
mark. -/
structure IsLiteral (text : List Char) (start stop : Nat) (value : List Char) : Prop where
  /-- The closing mark stands behind the opening one. -/
  marks_lt : start < stop - 1
  closing : text[stop - 1]? = some '"'
  splits : Splits value (text.extract (start + 1) (stop - 1))

/-- Reads the literal whose opening mark is at index `start`: what it stands for, and the index just
past its closing mark. -/
def readLiteralAt (text : List Char) (start : Nat) : Option (List Char × Nat) :=
  match readLiteral (text.drop (start + 1)) with
  | .closed value spelling _ => some (value, start + 1 + spelling.length)
  | .badEscape .. | .unterminated => none

variable {text value body rest : List Char} {start stop : Nat}

/-! ### Pieces -/

/-- The listed escapes are those that are read. -/
theorem unescape?_eq_some_iff {letter c : Char} :
    unescape? letter = some c ↔ (letter, c) ∈ escapes := by
  unfold unescape? escapes
  split_ifs <;> simp_all [eq_comm]

theorem Splits.nil : Splits [] [] :=
  ⟨[], List.forall_mem_nil _, rfl, rfl⟩

theorem Splits.cons {c : Char} {spelling : List Char} (hc : IsPiece c spelling)
    (h : Splits value body) : Splits (c :: value) (spelling ++ body) := by
  obtain ⟨pieces, hpieces, rfl, rfl⟩ := h
  exact ⟨(c, spelling) :: pieces, List.forall_mem_cons.2 ⟨hc, hpieces⟩, rfl, rfl⟩

/-- A spelling of the grammar goes on with a piece. -/
theorem IsPiece.literalBody_append {c : Char} {spelling : List Char} (hc : IsPiece c spelling)
    (h : LiteralBody value body) : LiteralBody (c :: value) (spelling ++ body) := by
  cases hc with
  | plain mark backslash => exact .plain mark backslash h
  | escape listed => exact .escape (unescape?_eq_some_iff.2 listed) h

/-- The grammar of literals is to be put together of pieces. -/
theorem splits_iff_literalBody : Splits value body ↔ LiteralBody value body := by
  constructor
  · rintro ⟨pieces, hpieces, rfl, rfl⟩
    induction pieces with
    | nil => exact .nil
    | cons p pieces ih =>
      obtain ⟨hp, hmore⟩ := List.forall_mem_cons.1 hpieces
      exact hp.literalBody_append (ih hmore)
  · intro h
    induction h with
    | nil => exact .nil
    | plain mark backslash _ ih => exact ih.cons (.plain mark backslash)
    | escape means _ ih => exact ih.cons (.escape (unescape?_eq_some_iff.1 means))

/-! ### Reading at an index -/

/-- A literal is what splits between two marks. -/
theorem isLiteral_iff :
    IsLiteral text start stop value ↔ ∃ body rest, Splits value body ∧
      text.drop (start + 1) = body ++ '"' :: rest ∧ stop = start + body.length + 2 := by
  constructor
  · rintro ⟨hlt, hclosing, hsplits⟩
    obtain ⟨hstop, hmark⟩ := List.getElem?_eq_some_iff.1 hclosing
    have hlength : (text.extract (start + 1) (stop - 1)).length = stop - 1 - (start + 1) := by
      rw [List.extract_eq_take_drop, List.length_take, List.length_drop]
      omega
    refine ⟨_, text.drop stop, hsplits, ?_, by omega⟩
    -- What is dropped is taken again up to the closing mark.
    have hdrop : (text.drop (start + 1)).drop (stop - 1 - (start + 1)) = '"' :: text.drop stop := by
      rw [List.drop_drop, show start + 1 + (stop - 1 - (start + 1)) = stop - 1 by omega,
        List.drop_eq_getElem_cons hstop, hmark, show stop - 1 + 1 = stop by omega]
    rw [← hdrop, List.extract_eq_take_drop, List.take_append_drop]
  · rintro ⟨body, rest, hsplits, hdrop, rfl⟩
    have hbody : text.extract (start + 1) (start + body.length + 2 - 1) = body := by
      rw [List.extract_eq_take_drop, hdrop]
      exact List.take_left' (by omega)
    refine ⟨by omega, ?_, hbody.symm ▸ hsplits⟩
    rw [show start + body.length + 2 - 1 = start + 1 + body.length by omega, ← List.getElem?_drop,
      hdrop, List.getElem?_append_right (Nat.le_refl _), Nat.sub_self, List.getElem?_cons_zero]

/-- Reading at an index comes to the closing mark behind a spelling of the grammar. -/
theorem readLiteralAt_eq_some_iff_literalBody :
    readLiteralAt text start = some (value, stop) ↔ ∃ body rest, LiteralBody value body ∧
      text.drop (start + 1) = body ++ '"' :: rest ∧ stop = start + body.length + 2 := by
  constructor
  · intro h
    unfold readLiteralAt at h
    split at h
    next value' spelling rest hread =>
      obtain ⟨rfl, rfl⟩ := Prod.mk.inj (Option.some.inj h)
      obtain ⟨body, rfl, hbody⟩ := literalBody_of_readLiteral hread
      refine ⟨body, rest, hbody, ?_, ?_⟩
      · rw [← spelling_append_rest hread, List.append_assoc, List.singleton_append]
      · rw [List.length_append, List.length_singleton]
        omega
    · cases h
    · cases h
  · rintro ⟨body, rest, hbody, hdrop, rfl⟩
    rw [readLiteralAt, hdrop, readLiteral_append hbody, Option.some.injEq, Prod.mk.injEq]
    refine ⟨rfl, ?_⟩
    rw [List.length_append, List.length_singleton]
    omega

/-- Reading at an index finds the literal there. -/
theorem readLiteralAt_eq_some_iff :
    readLiteralAt text start = some (value, stop) ↔ IsLiteral text start stop value := by
  simp only [readLiteralAt_eq_some_iff_literalBody, isLiteral_iff, splits_iff_literalBody]

/-- There is one literal at most at an index. -/
theorem subsingleton_isLiteral (text : List Char) (start : Nat) :
    {r : List Char × Nat | IsLiteral text start r.2 r.1}.Subsingleton := by
  intro r hr r' hr'
  have hread := readLiteralAt_eq_some_iff.2 hr
  have hread' := readLiteralAt_eq_some_iff.2 hr'
  exact Option.some.inj (hread.symm.trans hread')

/-! ### Writing -/

/-- What is written is read back, whatever stands before it and behind it. -/
theorem readLiteralAt_escape (before value rest : List Char) :
    readLiteralAt (before ++ '"' :: (escape value ++ '"' :: rest)) before.length =
      some (value, before.length + (escape value).length + 2) := by
  rw [readLiteralAt_eq_some_iff_literalBody]
  refine ⟨escape value, rest, literalBody_escape value, ?_, rfl⟩
  rw [List.drop_append, List.drop_of_length_le (Nat.le_succ _), Nat.add_sub_cancel_left,
    List.nil_append, List.drop_one, List.tail_cons]

/-- A line feed, a tab or a carriage return is never written as itself. -/
theorem not_mem_escape {c : Char} (hc : c ∈ ['\n', '\t', '\r']) (value : List Char) :
    c ∉ escape value := by
  intro h
  obtain ⟨d, -, hd⟩ := List.mem_flatMap.1 h
  rw [List.mem_cons, List.mem_cons, List.mem_singleton] at hc
  unfold escapeChar at hd
  rcases hc with rfl | rfl | rfl <;> grind

/-- Different texts are written differently, since each is read back. -/
theorem escape_injective : Function.Injective escape := by
  intro value value' h
  have hread := readLiteral_append (literalBody_escape value) []
  rw [h, readLiteral_append (literalBody_escape value') []] at hread
  exact ((LiteralReading.closed.inj hread).1).symm

/-- Reading at an index of a text finds a literal if there is one, and there is at most one.  What is
written as the inside of a literal is read back as what was to be written, whatever stands before the
literal and behind it, and reading stops just past the closing mark.  What is written has no line
feed, tab or carriage return in it, differs for different texts, and is written piece by piece. -/
theorem literals_exact :
    (∀ text start, (∀ value stop,
        readLiteralAt text start = some (value, stop) ↔ IsLiteral text start stop value) ∧
      {r : List Char × Nat | IsLiteral text start r.2 r.1}.Subsingleton) ∧
    (∀ before value rest,
      readLiteralAt (before ++ '"' :: (escape value ++ '"' :: rest)) before.length =
        some (value, before.length + (escape value).length + 2)) ∧
    (∀ value, '\n' ∉ escape value ∧ '\t' ∉ escape value ∧ '\r' ∉ escape value) ∧
    Function.Injective escape ∧
    ∀ value more, escape (value ++ more) = escape value ++ escape more := by
  refine ⟨?_, readLiteralAt_escape, ?_, escape_injective, escape_append⟩
  · intro text start
    exact ⟨fun _ _ => readLiteralAt_eq_some_iff, subsingleton_isLiteral text start⟩
  · intro value
    exact ⟨not_mem_escape (by simp) value, not_mem_escape (by simp) value,
      not_mem_escape (by simp) value⟩

/-- Three backslashes before a mark are an escaped backslash and an escaped mark. -/
example : readLiteralAt "a\"\\\\\\\"\"b".toList 1 = some (['\\', '"'], 7) := by
  decide +kernel

end CrateNotation.Text
