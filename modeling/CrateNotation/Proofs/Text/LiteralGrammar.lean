import CrateNotation.Text.Literal
import Mathlib.Tactic.Common

/-!
# The grammar of string literals

`LiteralBody` says, without a reader, which spellings stand for which texts between the marks of
a string literal.  Reading a literal accepts exactly such spellings: `readLiteral_append` and
`literalBody_of_readLiteral` are the two directions.  What follows the closing mark plays no part
in either.

A reading that fails has gone through such a spelling too, and has then come to an escape that is
none, or to the end of the text.

Writing stays inside the grammar, by `literalBody_escape`, so that reading undoes writing.
-/

namespace CrateNotation.Text

/-- `LiteralBody value body` says that `body` may stand between the marks of a string literal and
stands for `value` there. -/
inductive LiteralBody : List Char → List Char → Prop where
  /-- The empty literal stands for the empty text. -/
  | nil : LiteralBody [] []
  /-- A character that is neither a mark nor a backslash stands for itself. -/
  | plain {c : Char} {value body : List Char} (mark : c ≠ '"') (backslash : c ≠ '\\')
    (more : LiteralBody value body) : LiteralBody (c :: value) (c :: body)
  /-- A backslash and the character after it make an escape. -/
  | escape {c v : Char} {value body : List Char} (means : unescape? c = some v)
    (more : LiteralBody value body) : LiteralBody (v :: value) ('\\' :: c :: body)

variable {value body text spelling rest before : List Char} {bad : Char}

/-- What stands for two texts may be put together. -/
theorem LiteralBody.append {value' body' : List Char} (h : LiteralBody value body)
    (h' : LiteralBody value' body') : LiteralBody (value ++ value') (body ++ body') := by
  induction h with
  | nil => exact h'
  | plain mark backslash _ ih => exact .plain mark backslash ih
  | escape means _ ih => exact .escape means ih

/-! ### Reading -/

/-- One step of reading: a character that stands for itself. -/
theorem readLiteral_plain {c : Char} (mark : c ≠ '"') (backslash : c ≠ '\\') (rest : List Char) :
    readLiteral (c :: rest) = (readLiteral rest).push c [c] := by
  rw [readLiteral]
  · exact mark
  · intro hc
    exact absurd hc backslash
  · intro _ _ hc
    exact absurd hc backslash

/-- One step of reading: an escape. -/
theorem readLiteral_escape {c v : Char} (means : unescape? c = some v) (rest : List Char) :
    readLiteral ('\\' :: c :: rest) = (readLiteral rest).push v ['\\', c] := by
  rw [readLiteral, means]

/-- A spelling of the grammar is read as what it stands for, up to the closing mark. -/
theorem readLiteral_append (h : LiteralBody value body) (rest : List Char) :
    readLiteral (body ++ '"' :: rest) = .closed value (body ++ ['"']) rest := by
  induction h with
  | nil => rfl
  | plain mark backslash _ ih =>
    rw [List.cons_append, readLiteral_plain mark backslash, ih]
    rfl
  | escape means _ ih =>
    rw [List.cons_append, List.cons_append, readLiteral_escape means, ih]
    rfl

/-- A character that is neither a mark nor the backslash of an escape stands for itself. -/
theorem LiteralBody.plain_of_cases {c : Char} (mark : c = '"' → False)
    (single : c = '\\' → text = [] → False)
    (backslash : ∀ d rest, c = '\\' → text = d :: rest → False) (more : LiteralBody value body) :
    LiteralBody (c :: value) (c :: body) := by
  refine .plain mark ?_ more
  intro hc
  -- A backslash at the very end is a case of its own, so here a character follows it.
  cases text with
  | nil => exact single hc rfl
  | cons d rest => exact backslash d rest hc rfl

/-- What has been read is a spelling of the grammar and the closing mark. -/
theorem literalBody_of_readLiteral (h : readLiteral text = .closed value spelling rest) :
    ∃ body, spelling = body ++ ['"'] ∧ LiteralBody value body := by
  fun_induction readLiteral text generalizing value spelling with
  | case1 => simp at h
  | case2 =>
    obtain ⟨rfl, rfl, -⟩ : [] = value ∧ ['"'] = spelling ∧ _ = rest := by simpa using h
    exact ⟨[], rfl, .nil⟩
  | case3 => simp at h
  | case4 c rest' v means ih =>
    obtain ⟨value', spelling', hr, rfl, rfl⟩ := LiteralReading.push_eq_closed_iff.1 h
    obtain ⟨body, rfl, hbody⟩ := ih hr
    exact ⟨'\\' :: c :: body, rfl, .escape means hbody⟩
  | case5 => simp at h
  | case6 c rest' mark single backslash ih =>
    obtain ⟨value', spelling', hr, rfl, rfl⟩ := LiteralReading.push_eq_closed_iff.1 h
    obtain ⟨body, rfl, hbody⟩ := ih hr
    exact ⟨c :: body, rfl, .plain_of_cases mark single backslash hbody⟩

/-! ### Readings that fail -/

/-- Five characters make an escape with the backslash before them. -/
theorem unescape?_eq_none_iff {c : Char} :
    unescape? c = none ↔ c ∉ ['n', 't', 'r', '\\', '"'] := by
  unfold unescape?
  split_ifs <;> simp_all

/-- Reading stops at an escape that is none. -/
theorem readLiteral_badEscape (h : LiteralBody value body) (hbad : unescape? bad = none)
    (rest : List Char) :
    readLiteral (body ++ '\\' :: bad :: rest) = .badEscape (body ++ ['\\']) bad := by
  induction h with
  | nil =>
    rw [List.nil_append, readLiteral, hbad]
    rfl
  | plain mark backslash _ ih =>
    rw [List.cons_append, readLiteral_plain mark backslash, ih]
    rfl
  | escape means _ ih =>
    rw [List.cons_append, List.cons_append, readLiteral_escape means, ih]
    rfl

/-- Reading fails where the text ends, even if it ends in the middle of an escape. -/
theorem readLiteral_unterminated {tail : List Char} (h : LiteralBody value body)
    (htail : tail = [] ∨ tail = ['\\']) : readLiteral (body ++ tail) = .unterminated := by
  induction h with
  | nil => rcases htail with rfl | rfl <;> rfl
  | plain mark backslash _ ih =>
    rw [List.cons_append, readLiteral_plain mark backslash, ih]
    rfl
  | escape means _ ih =>
    rw [List.cons_append, List.cons_append, readLiteral_escape means, ih]
    rfl

theorem push_eq_badEscape_iff {c : Char} {piece : List Char} {r : LiteralReading} :
    r.push c piece = .badEscape before bad ↔
      ∃ before', r = .badEscape before' bad ∧ before = piece ++ before' := by
  cases r <;> grind [LiteralReading.push]

theorem push_eq_unterminated_iff {c : Char} {piece : List Char} {r : LiteralReading} :
    r.push c piece = .unterminated ↔ r = .unterminated := by
  cases r <;> simp [LiteralReading.push]

/-- A reading that is stopped by an escape has gone through a spelling of the grammar. -/
theorem exists_of_readLiteral_badEscape (h : readLiteral text = .badEscape before bad) :
    ∃ value body rest, LiteralBody value body ∧ unescape? bad = none ∧
      before = body ++ ['\\'] ∧ text = body ++ '\\' :: bad :: rest := by
  fun_induction readLiteral text generalizing before with
  | case1 => cases h
  | case2 => cases h
  | case3 => cases h
  | case4 c rest v means ih =>
    obtain ⟨before', hread, rfl⟩ := push_eq_badEscape_iff.1 h
    obtain ⟨value, body, more, hbody, hbad, rfl, rfl⟩ := ih hread
    exact ⟨v :: value, '\\' :: c :: body, more, .escape means hbody, hbad, rfl, rfl⟩
  | case5 c rest hnone =>
    cases h
    exact ⟨[], [], rest, .nil, hnone, rfl, rfl⟩
  | case6 c rest mark single backslash ih =>
    obtain ⟨before', hread, rfl⟩ := push_eq_badEscape_iff.1 h
    obtain ⟨value, body, more, hbody, hbad, rfl, htext⟩ := ih hread
    refine ⟨c :: value, c :: body, more, ?_, hbad, rfl, by rw [htext]; rfl⟩
    exact .plain_of_cases mark single backslash hbody

/-- So has a reading that comes to the end of the text. -/
theorem exists_of_readLiteral_unterminated (h : readLiteral text = .unterminated) :
    ∃ value body tail, LiteralBody value body ∧ (tail = [] ∨ tail = ['\\']) ∧
      text = body ++ tail := by
  fun_induction readLiteral text with
  | case1 => exact ⟨[], [], [], .nil, .inl rfl, rfl⟩
  | case2 => cases h
  | case3 => exact ⟨[], [], ['\\'], .nil, .inr rfl, rfl⟩
  | case4 c rest v means ih =>
    obtain ⟨value, body, tail, hbody, htail, rfl⟩ := ih (push_eq_unterminated_iff.1 h)
    exact ⟨v :: value, '\\' :: c :: body, tail, .escape means hbody, htail, rfl⟩
  | case5 => cases h
  | case6 c rest mark single backslash ih =>
    obtain ⟨value, body, tail, hbody, htail, htext⟩ := ih (push_eq_unterminated_iff.1 h)
    refine ⟨c :: value, c :: body, tail, ?_, htail, by rw [htext]; rfl⟩
    exact .plain_of_cases mark single backslash hbody

/-! ### Writing -/

/-- A character is written as a spelling that stands for it. -/
theorem LiteralBody.escapeChar_append (c : Char) (h : LiteralBody value body) :
    LiteralBody (c :: value) (escapeChar c ++ body) := by
  unfold escapeChar
  split_ifs with hn ht hr hb hq
  · exact .escape (by simp [hn, unescape?]) h
  · exact .escape (by simp [ht, unescape?]) h
  · exact .escape (by simp [hr, unescape?]) h
  · exact .escape (by simp [hb, unescape?]) h
  · exact .escape (by simp [hq, unescape?]) h
  · exact .plain hq hb h

/-- A written text is a spelling that stands for the text. -/
theorem literalBody_escape (text : List Char) : LiteralBody text (escape text) := by
  induction text with
  | nil => exact .nil
  | cons c text ih => exact ih.escapeChar_append c

end CrateNotation.Text
