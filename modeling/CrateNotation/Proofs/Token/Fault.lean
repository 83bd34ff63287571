import CrateNotation.Proofs.Token.Prefix

/-!
# What a lexical error is about

A step of the lexer fails in one of three ways: at a character that begins nothing, at an escape in a
string that is none, or in a string that the text ends in.  This module says where a text has such a
fault, without mentioning the lexer, and proves that the steps that fail are those at a fault.

A lexical error is blamed on the index at which the step fails, or, if an escape is at fault, on the
one behind the backslash.  Either way something stands there: a text does not fail at its end.

## Main Definitions

* `Begins` — what may stand at the beginning of a text
* `FaultAt` — what is wrong with a text at an index
* `LexError.PointsTo` — which index an error is about

## Main Statements

* `not_begins_iff` — the characters that begin nothing
* `faultAt_iff` — the steps that fail are those at a fault
* `exists_index_of_ofText` — an error is blamed on an index that it is about
-/

namespace CrateNotation

open Text

/-- `Begins text` says that a gap or a token stands at the beginning of `text`, or that a string is
opened there. -/
inductive Begins : List Char → Prop where
  | blank {c : Char} {cs : List Char} (blank : isBlank c = true) : Begins (c :: cs)
  | comment {cs : List Char} : Begins (';' :: cs)
  | quote {cs : List Char} : Begins ('"' :: cs)
  | token {kind : TokenKind} {lexeme spelling rest : List Char}
    (spells : Spells kind lexeme spelling) : Begins (spelling ++ rest)

/-- `FaultAt text s e` says that the text cannot be lexed from index `s` on, and that `e` is the error
to be reported. -/
inductive FaultAt (text : List Char) (s : Nat) : LexError → Prop where
  /-- Nothing begins there. -/
  | unexpected {c : Char} {cs : List Char} (here : text.drop s = c :: cs)
    (nothing : ¬ Begins (c :: cs)) :
    FaultAt text s (.unexpectedChar (String.singleton c) (.ofIndex text s))
  /-- A string is opened there, and before it is closed a backslash is followed by a character that
  makes no escape with it. The first such character is blamed. -/
  | escape {value body rest : List Char} {bad : Char}
    (here : text.drop s = '"' :: (body ++ '\\' :: bad :: rest)) (body_ok : LiteralBody value body)
    (no_escape : bad ∉ ['n', 't', 'r', '\\', '"']) :
    FaultAt text s
      (.invalidEscape (String.singleton bad) (.ofIndex text (s + 1 + body.length + 1)))
  /-- A string is opened there, and the text ends before it is closed, perhaps just behind a
  backslash. -/
  | unterminated {value body tail : List Char} (here : text.drop s = '"' :: (body ++ tail))
    (body_ok : LiteralBody value body) (ends : tail = [] ∨ tail = ['\\']) :
    FaultAt text s (.unterminatedString (.ofIndex text s))

/-- `e.PointsTo text i` says that the error `e` is about what stands at index `i` of the text. -/
def LexError.PointsTo (text : List Char) (i : Nat) : LexError → Prop
  | unexpectedChar found _ | invalidEscape found _ =>
    ∃ c, text[i]? = some c ∧ found = String.singleton c
  | unterminatedString _ => text[i]? = some '"'
  | unexpectedEnd => False

variable {text cs before : List Char} {c bad : Char} {s i : Nat} {e : LexError}

/-! ## Characters that begin nothing -/

/-- A text that begins with a digit, or with a minus sign and a digit, begins with a number. -/
theorem scan_ne_stray_of_beginsNumber (h : beginsNumber c cs = true) : scan c cs ≠ .stray := by
  have hsplit : cs.takeWhile isAsciiDigit ++ cs.dropWhile isAsciiDigit = cs :=
    List.takeWhile_append_dropWhile
  rw [← hsplit] at h ⊢
  rw [scan_number h (fun d hd => List.mem_takeWhile_imp hd) (stop_dropWhile isAsciiDigit cs)]
  simp

theorem scan_ne_stray_of_isSymbolStart (h : isSymbolStart c = true) : scan c cs ≠ .stray := by
  rw [scan_of_isSymbolChar (isSymbolChar_of_isSymbolStart h), if_pos h, scanNumber_eq,
    scanSymbol_eq]
  split <;> simp

theorem scan_ne_stray_of_spells {kind : TokenKind} {lexeme spelling rest : List Char}
    (h : Spells kind lexeme spelling) (htext : c :: cs = spelling ++ rest) :
    scan c cs ≠ .stray := by
  cases h with
  | openParen =>
    obtain ⟨rfl, -⟩ := List.cons.inj htext
    rw [scan_openParen]
    simp
  | closeParen =>
    obtain ⟨rfl, -⟩ := List.cons.inj htext
    rw [scan_closeParen]
    simp
  | keyword name_ok =>
    obtain ⟨hne, hname⟩ := name_ok
    obtain ⟨rfl, rfl⟩ := List.cons.inj htext
    obtain ⟨d, name, rfl⟩ := List.exists_cons_of_ne_nil hne
    rw [scan_colon, scanKeyword, List.append_eq, List.cons_append,
      List.takeWhile_cons_of_pos (hname d List.mem_cons_self)]
    simp
  | string body_ok =>
    obtain ⟨rfl, -⟩ := List.cons.inj htext
    rw [scan_quote, scanString]
    split <;> simp
  | number text_ok =>
    apply scan_ne_stray_of_beginsNumber
    rcases text_ok with ⟨hne, hdigits⟩ | ⟨digits, rfl, hne, hdigits⟩
    · obtain ⟨d, digits, rfl⟩ := List.exists_cons_of_ne_nil hne
      obtain ⟨rfl, -⟩ := List.cons.inj htext
      rw [beginsNumber, hdigits c List.mem_cons_self, Bool.true_or]
    · obtain ⟨d, digits, rfl⟩ := List.exists_cons_of_ne_nil hne
      obtain ⟨rfl, rfl⟩ := List.cons.inj htext
      have hd : isAsciiDigit d = true := hdigits d List.mem_cons_self
      simp [beginsNumber, hd]
  | symbol text_ok =>
    obtain ⟨hname, -⟩ := text_ok
    cases hname with
    | mk start more notNumber =>
      obtain ⟨rfl, -⟩ := List.cons.inj htext
      exact scan_ne_stray_of_isSymbolStart start
  | nil =>
    obtain ⟨rfl, -⟩ := List.cons.inj htext
    exact scan_ne_stray_of_isSymbolStart (by decide)

/-- Only a string is cut short by what stands in it or by the end of the text. -/
theorem eq_quote_of_scan
    (h : scan c cs = .unterminated ∨ ∃ before bad, scan c cs = .badEscape before bad) :
    c = '"' := by
  by_contra hquote
  unfold scan scanKeyword scanNumber scanSymbol at h
  grind

/-- The lexer is lost at characters that begin nothing. -/
theorem scan_eq_stray_iff : scan c cs = .stray ↔ ¬ Begins (c :: cs) := by
  constructor
  · intro hstray hbegins
    revert hstray
    generalize htext : c :: cs = text at hbegins
    cases hbegins with
    | blank hblank =>
      obtain ⟨rfl, rfl⟩ := List.cons.inj htext
      rw [scan_of_isBlank hblank]
      simp
    | comment =>
      obtain ⟨rfl, rfl⟩ := List.cons.inj htext
      rw [scan_semicolon]
      simp
    | quote =>
      obtain ⟨rfl, rfl⟩ := List.cons.inj htext
      rw [scan_quote, scanString]
      split <;> simp
    | token spells => exact scan_ne_stray_of_spells spells htext
  · intro hnothing
    have hsplit := scan_isSplit c cs
    cases hscan : scan c cs with
    | stray => rfl
    | gap spelling rest =>
      rw [hscan] at hsplit
      obtain ⟨htext, hne⟩ := hsplit
      refine absurd ?_ hnothing
      rw [← htext]
      cases isGap_of_scan hscan with
      | none => exact absurd rfl hne
      | blank hblank => exact .blank hblank
      | comment => exact .comment
    | token kind lexeme spelling rest =>
      rw [hscan] at hsplit
      rw [← hsplit.1] at hnothing
      exact absurd (.token (spells_of_scan hscan).1) hnothing
    | badEscape before bad =>
      obtain rfl := eq_quote_of_scan (.inr ⟨before, bad, hscan⟩)
      exact absurd .quote hnothing
    | unterminated =>
      obtain rfl := eq_quote_of_scan (.inl hscan)
      exact absurd .quote hnothing

/-- Every mark but the colon begins something, whatever follows it. -/
theorem begins_of_isMark (h : isMark c = true) (hcolon : c ≠ ':') : Begins (c :: cs) := by
  simp only [isMark, decide_eq_true_eq, List.mem_cons, List.not_mem_nil, or_false] at h
  rcases h with rfl | rfl | rfl | rfl | rfl
  · exact .comment
  · exact .token .openParen
  · exact .token .closeParen
  · exact absurd rfl hcolon
  · exact .quote

/-- The lexer is lost at a character that is in none of the classes. -/
theorem scan_of_no_class (hblank : isBlank c = false) (hmark : isMark c = false)
    (hdigit : isAsciiDigit c = false) (hstart : isSymbolStart c = false) :
    scan c cs = .stray := by
  have hminus : (c == '-') = false := by
    rw [beq_eq_false_iff_ne]
    rintro rfl
    exact absurd hstart (by decide)
  have hnumber : beginsNumber c cs = false := by
    rw [beginsNumber, hdigit, hminus, Bool.false_and, Bool.or_false]
  simp only [isMark, decide_eq_false_iff_not, List.mem_cons, List.not_mem_nil, or_false,
    not_or] at hmark
  obtain ⟨hsemicolon, hopen, hclose, hcolon, hquote⟩ := hmark
  rw [scan, hblank, if_neg Bool.false_ne_true, if_neg hsemicolon, if_neg hopen, if_neg hclose,
    if_neg hcolon, if_neg hquote, hnumber, if_neg Bool.false_ne_true, hstart,
    if_neg Bool.false_ne_true]

/-- Nothing begins with a colon that no symbol character follows, nor with a character that is in
none of the classes that pieces of a text begin with. -/
theorem not_begins_iff :
    ¬ Begins (c :: cs) ↔ (c = ':' ∧ ∀ d ∈ cs.head?, isSymbolChar d = false) ∨
      (isBlank c = false ∧ isMark c = false ∧ isAsciiDigit c = false ∧
        isSymbolStart c = false) := by
  constructor
  · intro hnothing
    by_cases hcolon : c = ':'
    · refine .inl ⟨hcolon, ?_⟩
      intro d hd
      rw [Bool.eq_false_iff]
      intro hsymbol
      obtain ⟨more, rfl⟩ := List.head?_eq_some_iff.1 hd
      have hkeyword : IsKeyword [d] :=
        ⟨List.cons_ne_nil d [], List.forall_mem_singleton.2 hsymbol⟩
      have hbegins : Begins ((':' :: [d]) ++ more) := .token (.keyword hkeyword)
      exact hnothing (hcolon ▸ hbegins)
    · right
      refine ⟨?_, ?_, ?_, ?_⟩ <;> rw [Bool.eq_false_iff]
      · exact fun hblank => hnothing (.blank hblank)
      · exact fun hmark => hnothing (begins_of_isMark hmark hcolon)
      · intro hdigit
        have hnumber : IsNumber [c] :=
          .inl ⟨List.cons_ne_nil c [], List.forall_mem_singleton.2 hdigit⟩
        exact hnothing (.token (.number hnumber))
      · intro hstart
        have hname : IsName [c] := .mk hstart (List.forall_mem_nil _) (by simp)
        have hnil : [c] ≠ nilName := by simp [nilName]
        exact hnothing (.token (.symbol ⟨hname, hnil⟩))
  · rw [← scan_eq_stray_iff]
    rintro (⟨rfl, hnext⟩ | ⟨hblank, hmark, hdigit, hstart⟩)
    · have hnone : cs.takeWhile isSymbolChar = [] :=
        @takeWhile_append_stop isSymbolChar [] cs (List.forall_mem_nil _) hnext
      rw [scan_colon, scanKeyword, hnone]
    · exact scan_of_no_class hblank hmark hdigit hstart

/-- Decimal digits other than those of ASCII begin nothing. -/
theorem not_begins_decimalDigit (h : isDecimalDigit c = true) (hascii : isAsciiDigit c = false)
    (cs : List Char) : ¬ Begins (c :: cs) := by
  rw [not_begins_iff]
  refine .inr ⟨?_, ?_, hascii, ?_⟩
  · exact isBlank_of_isDecimalDigit h
  · exact isMark_of_isDecimalDigit h
  · exact isSymbolStart_of_isDecimalDigit h

/-- Nor does an apostrophe begin anything. -/
theorem not_begins_apostrophe (cs : List Char) : ¬ Begins ('\'' :: cs) :=
  not_begins_iff.2 (.inr (by decide +kernel))

/-! ## Steps that fail -/

theorem scan_eq_badEscape_iff :
    scan c cs = .badEscape before bad ↔
      c = '"' ∧ ∃ value body rest, LiteralBody value body ∧ unescape? bad = none ∧
        before = '"' :: (body ++ ['\\']) ∧ cs = body ++ '\\' :: bad :: rest := by
  constructor
  · intro h
    obtain rfl : c = '"' := eq_quote_of_scan (.inr ⟨before, bad, h⟩)
    refine ⟨rfl, ?_⟩
    rw [scan_quote, scanString] at h
    cases hread : readLiteral cs with
    | closed value spelling rest =>
      rw [hread] at h
      cases h
    | badEscape before' bad' =>
      rw [hread] at h
      cases h
      obtain ⟨value, body, rest, hbody, hbad, rfl, htext⟩ :=
        exists_of_readLiteral_badEscape hread
      exact ⟨value, body, rest, hbody, hbad, rfl, htext⟩
    | unterminated =>
      rw [hread] at h
      cases h
  · rintro ⟨rfl, value, body, rest, hbody, hbad, rfl, rfl⟩
    rw [scan_quote, scanString, readLiteral_badEscape hbody hbad]

theorem scan_eq_unterminated_iff :
    scan c cs = .unterminated ↔
      c = '"' ∧ ∃ value body tail, LiteralBody value body ∧ (tail = [] ∨ tail = ['\\']) ∧
        cs = body ++ tail := by
  constructor
  · intro h
    obtain rfl : c = '"' := eq_quote_of_scan (.inl h)
    refine ⟨rfl, ?_⟩
    rw [scan_quote, scanString] at h
    cases hread : readLiteral cs with
    | closed value spelling rest =>
      rw [hread] at h
      cases h
    | badEscape before' bad' =>
      rw [hread] at h
      cases h
    | unterminated => exact exists_of_readLiteral_unterminated hread
  · rintro ⟨rfl, value, body, tail, hbody, htail, rfl⟩
    rw [scan_quote, scanString, readLiteral_unterminated hbody htail]

/-- A fault is at an index of the text. -/
theorem lt_length_of_drop (h : text.drop i = c :: cs) : i < text.length := by
  by_contra hge
  rw [List.drop_eq_nil_of_le (Nat.not_lt.1 hge)] at h
  cases h

/-- What is escaped is at an index of the text. -/
theorem escape_lt_length {body rest : List Char}
    (h : text.drop s = '"' :: (body ++ '\\' :: bad :: rest)) :
    s + 1 + body.length + 1 < text.length := by
  have hlength := congrArg List.length h
  simp only [List.length_drop, List.length_cons, List.length_append] at hlength
  omega

/-- An escape that is none stands behind the mark that opens its string. -/
theorem ofIndex_after_escape {body rest : List Char}
    (h : text.drop s = '"' :: (body ++ '\\' :: bad :: rest)) :
    (Position.ofIndex text s).after ('"' :: (body ++ ['\\'])) =
      .ofIndex text (s + 1 + body.length + 1) := by
  have hs : s ≤ text.length := (lt_length_of_drop h).le
  have hsplit : text.drop s = '"' :: (body ++ ['\\']) ++ bad :: rest := by
    rw [h, List.cons_append, List.append_assoc]
    rfl
  rw [ofIndex_after_of_drop hsplit hs]
  congr 1
  rw [List.length_cons, List.length_append, List.length_singleton]
  omega

/-- The steps that fail are those at a fault. -/
theorem faultAt_iff :
    FaultAt text s e ↔
      ∃ c cs, text.drop s = c :: cs ∧ (scan c cs).error? (.ofIndex text s) c = some e := by
  constructor
  · intro h
    cases h with
    | unexpected here nothing =>
      refine ⟨_, _, here, ?_⟩
      rw [scan_eq_stray_iff.2 nothing, Scan.error?]
    | escape here body_ok no_escape =>
      refine ⟨_, _, here, ?_⟩
      rw [scan_eq_badEscape_iff.2
        ⟨rfl, _, _, _, body_ok, unescape?_eq_none_iff.2 no_escape, rfl, rfl⟩, Scan.error?,
        ofIndex_after_escape here]
    | unterminated here body_ok ends =>
      refine ⟨_, _, here, ?_⟩
      rw [scan_eq_unterminated_iff.2 ⟨rfl, _, _, _, body_ok, ends, rfl⟩, Scan.error?]
  · rintro ⟨c, cs, here, herror⟩
    cases hscan : scan c cs with
    | gap spelling rest =>
      rw [hscan] at herror
      cases herror
    | token kind lexeme spelling rest =>
      rw [hscan] at herror
      cases herror
    | stray =>
      rw [hscan] at herror
      obtain rfl := Option.some.inj herror
      exact .unexpected here (scan_eq_stray_iff.1 hscan)
    | badEscape before bad =>
      rw [hscan] at herror
      obtain rfl := Option.some.inj herror
      obtain ⟨rfl, value, body, rest, hbody, hbad, rfl, rfl⟩ := scan_eq_badEscape_iff.1 hscan
      rw [ofIndex_after_escape here]
      exact .escape here hbody (unescape?_eq_none_iff.1 hbad)
    | unterminated =>
      rw [hscan] at herror
      obtain rfl := Option.some.inj herror
      obtain ⟨rfl, value, body, tail, hbody, htail, rfl⟩ := scan_eq_unterminated_iff.1 hscan
      exact .unterminated here hbody htail

/-! ## The index that is blamed -/

theorem head_of_drop (h : text.drop i = c :: cs) : text[i]? = some c := by
  rw [← List.head?_drop, h]
  rfl

/-- A fault is blamed on an index that its error is about. -/
theorem FaultAt.exists_index (h : FaultAt text s e) :
    ∃ j < text.length, e.pos? = some (.ofIndex text j) ∧ e.PointsTo text j := by
  cases h with
  | unexpected here nothing =>
    exact ⟨s, lt_length_of_drop here, rfl, _, head_of_drop here, rfl⟩
  | @escape value body rest bad here body_ok no_escape =>
    have hbad : text.drop (s + 1 + body.length + 1) = bad :: rest := by
      rw [← List.drop_drop, ← List.drop_drop, ← List.drop_drop, here]
      simp
    exact ⟨_, lt_length_of_drop hbad, rfl, bad, head_of_drop hbad, rfl⟩
  | unterminated here body_ok ends => exact ⟨s, lt_length_of_drop here, rfl, head_of_drop here⟩

/-- The error of a text is blamed on an index that it is about. -/
theorem exists_index_of_ofText {text : String} (h : Token.ofText text = .error e) :
    ∃ j < text.toList.length, e.pos? = some (.ofIndex text.toList j) ∧
      e.PointsTo text.toList j := by
  have hstart : lexFrom (.ofIndex text.toList 0) (text.toList.drop 0) = .error e := h
  obtain ⟨pieces, n, c, cs, -, hdrop, herror⟩ := exists_fault_of_lexFrom (Nat.zero_le _) hstart
  exact (faultAt_iff.2 ⟨c, cs, hdrop, herror⟩).exists_index

end CrateNotation
