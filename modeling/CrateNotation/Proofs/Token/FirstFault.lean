import CrateNotation.Proofs.Source.Lines
import CrateNotation.Proofs.Token.Fault

/-!
# The first fault of a text

A text makes no tokens exactly if it has a fault at an index that the lexer comes to, which is one up
to which pieces can be laid over the text.  There is at most one such index, and what is wrong there
is what is reported.

A character that begins nothing and an escape that is none are wrong whatever is written behind them.
Only a colon waits for one character more, since a keyword may begin with it.  With a string that is
not closed it is the other way round: the text can always be completed.

Two faults cannot be reached in the same text, since the lexer reports one error only.  For an escape
this does not say yet which string it stands in.  But if the text is cut in front of the escape, it
has no more than a string that is not closed, and that error names the index of its opening mark.

## Main Statements

* `ofText_eq_error_iff` — a text fails exactly at a fault that the lexer comes to
* `FaultAt.unique` — there is one such fault at most
* `ofText_error_first_fault` — the two together, and what decides about a fault
-/

namespace CrateNotation

open Position (ofIndex_inj)
open Text

section Faults

variable {text other : List Char} {pieces pieces' : List Piece} {s s' i : Nat} {e e' : LexError}

/-- The lexer reports the fault that it comes to. -/
theorem lexFrom_fault (hlaid : Laid text 0 pieces s) (h : FaultAt text s e) :
    lexFrom .start text = .error e := by
  obtain ⟨c, cs, hdrop, herror⟩ := faultAt_iff.1 h
  have hlexed : lexFrom (.ofIndex text 0) (text.drop 0) = .error e := by
    rw [lexFrom_laid hlaid (lt_length_of_drop hdrop).le, hdrop, lexFrom_of_scan_error herror]
    rfl
  exact hlexed

/-- A text fails exactly at a fault that the lexer comes to. -/
theorem lexFrom_eq_error_iff :
    lexFrom .start text = .error e ↔ ∃ pieces s, Laid text 0 pieces s ∧ FaultAt text s e := by
  constructor
  · intro h
    have hstart : lexFrom (.ofIndex text 0) (text.drop 0) = .error e := h
    obtain ⟨pieces, s, c, cs, hlaid, hdrop, herror⟩ :=
      exists_fault_of_lexFrom (Nat.zero_le _) hstart
    exact ⟨pieces, s, hlaid, faultAt_iff.2 ⟨c, cs, hdrop, herror⟩⟩
  · rintro ⟨pieces, s, hlaid, h⟩
    exact lexFrom_fault hlaid h

theorem FaultAt.lt_length (h : FaultAt text s e) : s < text.length := by
  obtain ⟨c, cs, hdrop, -⟩ := faultAt_iff.1 h
  exact lt_length_of_drop hdrop

/-- If a text is cut inside a string, it is the string that is at fault. -/
theorem FaultAt.of_cut {value body rest : List Char} (here : text.drop s = '"' :: (body ++ rest))
    (body_ok : LiteralBody value body) :
    FaultAt (text.take (s + 1 + body.length)) s
      (.unterminatedString (.ofIndex (text.take (s + 1 + body.length)) s)) := by
  have hbetween : between text s (s + ('"' :: body).length) = '"' :: body :=
    (between_of_append here.symm).1
  have hdrop : (text.take (s + 1 + body.length)).drop s = '"' :: (body ++ []) := by
    rw [List.drop_take, List.append_nil, ← hbetween, between]
    congr 1
    rw [List.length_cons]
    omega
  exact .unterminated hdrop body_ok (.inl rfl)

/-- What is laid over a text up to an index is laid over the text as it is cut behind the index. -/
theorem Laid.of_cut {n : Nat} (h : Laid text 0 pieces s) (hn : s < n) :
    Laid (text.take n) 0 pieces s := by
  apply h.congr_take
  rw [List.take_take, Nat.min_eq_left hn]

/-- The lexer comes to one fault at most. -/
theorem FaultAt.unique (h : FaultAt text s e) (hlaid : Laid text 0 pieces s)
    (h' : FaultAt text s' e') (hlaid' : Laid text 0 pieces' s') : s' = s ∧ e' = e := by
  have herror : e' = e :=
    Except.error.inj ((lexFrom_fault hlaid' h').symm.trans (lexFrom_fault hlaid h))
  refine ⟨?_, herror⟩
  have hs : s ≤ text.length := h.lt_length.le
  have hs' : s' ≤ text.length := h'.lt_length.le
  cases h with
  | unexpected here nothing =>
    cases h' with
    | unexpected here' nothing' =>
      exact ofIndex_inj hs' hs (LexError.unexpectedChar.inj herror).2
    | escape | unterminated => cases herror
  | @escape value body rest bad here body_ok no_escape =>
    cases h' with
    | @escape value' body' rest' bad' here' body_ok' no_escape' =>
      -- Both texts are cut in front of the escape, which is the same one.
      have hcut := FaultAt.of_cut here body_ok
      have hcut' := FaultAt.of_cut here' body_ok'
      have hindex : s' + 1 + body'.length + 1 = s + 1 + body.length + 1 :=
        ofIndex_inj (escape_lt_length here').le (escape_lt_length here).le
          (LexError.invalidEscape.inj herror).2
      have hsame : s' + 1 + body'.length = s + 1 + body.length := by omega
      rw [hsame] at hcut'
      have hreported := lexFrom_fault (hlaid.of_cut (by omega)) hcut
      have hreported' := lexFrom_fault (hlaid'.of_cut (by omega)) hcut'
      have hmark := Except.error.inj (hreported'.symm.trans hreported)
      exact ofIndex_inj hcut'.lt_length.le hcut.lt_length.le (LexError.unterminatedString.inj hmark)
    | unexpected | unterminated => cases herror
  | unterminated here body_ok ends =>
    cases h' with
    | unterminated here' body_ok' ends' =>
      exact ofIndex_inj hs' hs (LexError.unterminatedString.inj herror)
    | unexpected | escape => cases herror

/-! ## What decides about a fault -/

/-- A character that begins nothing is at fault in every text that agrees so far. Behind a colon no
symbol character may follow. -/
theorem FaultAt.congr_unexpected {found : String} {pos : Position}
    (h : FaultAt text s (.unexpectedChar found pos))
    (hagree : other.take (s + 1) = text.take (s + 1))
    (hcolon : text[s]? = some ':' → ∀ d ∈ other[s + 1]?, isSymbolChar d = false) :
    FaultAt other s (.unexpectedChar found pos) := by
  cases h with
  | @unexpected c cs here nothing =>
    have hchar : text[s]? = some c := head_of_drop here
    have hchar' : other[s]? = some c := (getElem?_congr hagree s.lt_succ_self).trans hchar
    obtain ⟨hs, hget⟩ := List.getElem?_eq_some_iff.1 hchar'
    have here' : other.drop s = c :: other.drop (s + 1) := by
      rw [← hget]
      exact List.drop_eq_getElem_cons hs
    rw [← ofIndex_congr hagree s.le_succ]
    refine .unexpected here' ?_
    rw [not_begins_iff] at nothing ⊢
    rcases nothing with ⟨rfl, -⟩ | hclass
    · refine .inl ⟨rfl, ?_⟩
      rw [List.head?_drop]
      exact hcolon hchar
    · exact .inr hclass

/-- An escape that is none is at fault in every text that agrees so far. -/
theorem FaultAt.congr_escape {found : String} (hi : i < text.length)
    (h : FaultAt text s (.invalidEscape found (.ofIndex text i)))
    (hagree : other.take (i + 1) = text.take (i + 1)) :
    s < i ∧ FaultAt other s (.invalidEscape found (.ofIndex text i)) := by
  generalize hpos : Position.ofIndex text i = pos at h
  cases h with
  | @escape value body rest bad here body_ok no_escape =>
    have hsplit : '"' :: (body ++ ['\\', bad]) ++ rest = text.drop s := by
      rw [here, List.cons_append, List.append_assoc]
      rfl
    obtain ⟨hbetween, hrest⟩ := between_of_append hsplit
    have hlength : s + ('"' :: (body ++ ['\\', bad])).length = s + 1 + body.length + 1 + 1 := by
      simp only [List.length_cons, List.length_append, List.length_nil]
      omega
    rw [hlength] at hbetween hrest
    obtain rfl : i = s + 1 + body.length + 1 :=
      ofIndex_inj hi.le (escape_lt_length here).le hpos
    refine ⟨by omega, ?_⟩
    rw [← ofIndex_congr hagree (Nat.le_succ _)]
    have hother : other.drop s =
        '"' :: (body ++ '\\' :: bad :: other.drop (s + 1 + body.length + 1 + 1)) := by
      have hle : s ≤ s + 1 + body.length + 1 + 1 := by omega
      rw [← between_append_drop hle, between_congr hagree le_rfl, hbetween, List.cons_append,
        List.append_assoc]
      rfl
    exact .escape hother body_ok no_escape

/-- A string that is not closed can be closed, and then the text ends. -/
theorem FaultAt.exists_completion {pos : Position} (hlaid : Laid text 0 pieces s)
    (h : FaultAt text s (.unterminatedString pos)) :
    ∃ more tokens, lexFrom .start (text ++ more) = .ok tokens := by
  have hs : s < text.length := h.lt_length
  -- Behind a backslash the closing mark would be taken for an escape, so it is written twice.
  obtain ⟨more, value, body, hdrop, hbody⟩ : ∃ more value body,
      (text ++ more).drop s = ('"' :: body ++ ['"']) ++ [] ∧ LiteralBody value body := by
    cases h with
    | @unterminated value body tail here body_ok ends =>
      rcases ends with rfl | rfl
      · refine ⟨['"'], value, body, ?_, body_ok⟩
        rw [List.drop_append_of_le_length hs.le, here]
        simp
      · have hescape : LiteralBody ['"'] ['\\', '"'] := .escape rfl .nil
        refine ⟨['"', '"'], _, _, ?_, body_ok.append hescape⟩
        rw [List.drop_append_of_le_length hs.le, here]
        simp
  have hlaid' : Laid (text ++ more) 0 pieces s := by
    apply hlaid.congr_take
    exact List.take_append_of_le_length hs
  have hs' : s ≤ (text ++ more).length := by
    rw [List.length_append]
    omega
  let pos := Position.ofIndex (text ++ more) s
  refine ⟨more, pieces.map Piece.token ++ [⟨.string, String.ofList value, pos⟩,
    ⟨.endOfInput, "", pos.after ('"' :: body ++ ['"'])⟩], ?_⟩
  show lexFrom (.ofIndex (text ++ more) 0) ((text ++ more).drop 0) = _
  rw [lexFrom_laid hlaid' hs', hdrop, lexFrom_spelling _ (.string hbody) trivial, lexFrom]
  rfl

end Faults

/-- A text makes no tokens exactly if pieces can be laid over it up to an index at which it has a
fault, and the error that is reported is that of the fault.  There is at most one such index.

Nothing begins with a colon that no symbol character follows, with a decimal digit that is not one of
ASCII, or with an apostrophe.

A fault that is blamed on the index `i` is reported of every text that begins with the same `i + 1`
characters, but for two things.  Behind a colon no symbol character may follow.  And a string that is
not closed is no fault any more if the right characters follow. -/
theorem ofText_error_first_fault (text : String) :
    (∀ e, Token.ofText text = .error e ↔
      ∃ pieces s, Laid text.toList 0 pieces s ∧ FaultAt text.toList s e) ∧
    (∀ pieces s e pieces' s' e', Laid text.toList 0 pieces s → FaultAt text.toList s e →
      Laid text.toList 0 pieces' s' → FaultAt text.toList s' e' → s' = s ∧ e' = e) ∧
    (∀ c cs, (c = ':' ∧ ∀ d ∈ cs.head?, isSymbolChar d = false) ∨
      (isDecimalDigit c = true ∧ isAsciiDigit c = false) ∨ c = '\'' → ¬ Begins (c :: cs)) ∧
    (∀ found i, i < text.toList.length →
      Token.ofText text = .error (.unexpectedChar found (.ofIndex text.toList i)) →
      ∀ other : String, other.toList.take (i + 1) = text.toList.take (i + 1) →
        (text.toList[i]? = some ':' → ∀ d ∈ other.toList[i + 1]?, isSymbolChar d = false) →
        Token.ofText other = .error (.unexpectedChar found (.ofIndex text.toList i))) ∧
    (∀ found i, i < text.toList.length →
      Token.ofText text = .error (.invalidEscape found (.ofIndex text.toList i)) →
      ∀ other : String, other.toList.take (i + 1) = text.toList.take (i + 1) →
        Token.ofText other = .error (.invalidEscape found (.ofIndex text.toList i))) ∧
    (∀ pos, Token.ofText text = .error (.unterminatedString pos) →
      ∃ (more : String) (tokens : List Token), Token.ofText (text ++ more) = .ok tokens) := by
  refine ⟨fun e => lexFrom_eq_error_iff, ?_, ?_, ?_, ?_, ?_⟩
  · intro pieces s e pieces' s' e' hlaid h hlaid' h'
    exact h.unique hlaid h' hlaid'
  · rintro c cs (hcolon | ⟨hdecimal, hascii⟩ | rfl)
    · exact not_begins_iff.2 (.inl hcolon)
    · exact not_begins_decimalDigit hdecimal hascii cs
    · exact not_begins_apostrophe cs
  · intro found i hi herror other hagree hcolon
    obtain ⟨pieces, s, hlaid, h⟩ := lexFrom_eq_error_iff.1 herror
    obtain rfl : i = s := by
      generalize hpos : Position.ofIndex text.toList i = pos at h
      cases h with
      | unexpected here nothing => exact ofIndex_inj hi.le (lt_length_of_drop here).le hpos
    exact lexFrom_fault (hlaid.congr_take hagree) (h.congr_unexpected hagree hcolon)
  · intro found i hi herror other hagree
    obtain ⟨pieces, s, hlaid, h⟩ := lexFrom_eq_error_iff.1 herror
    obtain ⟨hlt, hfault⟩ := h.congr_escape hi hagree
    have hbefore : other.toList.take (s + 1) = text.toList.take (s + 1) :=
      take_congr hagree (Nat.succ_le_succ hlt.le)
    exact lexFrom_fault (hlaid.congr_take hbefore) hfault
  · intro pos herror
    obtain ⟨pieces, s, hlaid, h⟩ := lexFrom_eq_error_iff.1 herror
    obtain ⟨more, tokens, hlexed⟩ := h.exists_completion hlaid
    refine ⟨String.ofList more, tokens, ?_⟩
    rw [Token.ofText, String.toList_append, String.toList_ofList]
    exact hlexed

/-- A colon before a parenthesis is at fault, and so is the same colon before a blank. -/
theorem ofText_error_first_fault_colon :
    let e : LexError := .unexpectedChar ":" ⟨3, 1, 4⟩
    Token.ofText "(a :)" = .error e ∧ Token.ofText "(a : b" = .error e ∧
      ∃ pieces s, Laid "(a :)".toList 0 pieces s ∧ FaultAt "(a :)".toList s e := by
  intro e
  have herror : Token.ofText "(a :)" = .error e := by decide +kernel
  obtain ⟨hiff, -, -, hunexpected, -⟩ := ofText_error_first_fault "(a :)"
  have hblank : ∀ d ∈ "(a : b".toList[4]?, isSymbolChar d = false := by
    intro d hd
    obtain rfl := Option.some.inj hd
    exact isSymbolChar_of_isBlank (by decide)
  have hother := hunexpected ":" 3 (by decide) herror "(a : b" (by decide) fun _ => hblank
  exact ⟨herror, hother, (hiff e).1 herror⟩

end CrateNotation
