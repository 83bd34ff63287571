import CrateNotation.Proofs.Source.Walk
import CrateNotation.Proofs.Token.Grammar

/-!
# The tokens of a text and where they stand

The lexer accepts exactly the texts that can be cut into pieces: the spellings of tokens in order,
each at its own interval of indices, with gaps in all the room that is left.  A token keeps the
position of the index at which its interval begins.

The cut goes through the whole text, so nothing of it is lost.  Every spelling is as long as it can
be: what follows it is not something that it could go on with.

## Main Definitions

* `Piece` — a token with the interval that spells it
* `Laid` — pieces in order with gaps between them

## Main Statements

* `lexFrom_laid` — pieces and gaps are lexed as the tokens of the pieces
* `exists_laid_upTo` — every text has pieces up to its end, or up to a step that fails
* `ofText_eq_ok_iff` — a row of tokens is what a text makes exactly if it can be laid over the text
-/

namespace CrateNotation

/-! ## Intervals of a text -/

/-- The characters of a text from index `start` up to index `stop`. -/
def between (text : List Char) (start stop : Nat) : List Char :=
  (text.drop start).take (stop - start)

section Between

variable {text : List Char} {i j k : Nat}

@[simp]
theorem between_self (text : List Char) (i : Nat) : between text i i = [] := by
  simp [between]

theorem between_append_drop (hij : i ≤ j) : between text i j ++ text.drop j = text.drop i := by
  have h := List.take_append_drop (j - i) (text.drop i)
  rwa [List.drop_drop, Nat.add_sub_cancel' hij] at h

theorem between_append_between (hij : i ≤ j) (hjk : j ≤ k) :
    between text i j ++ between text j k = between text i k := by
  have hsum : k - i = (j - i) + (k - j) := by omega
  rw [between, between, between, hsum, List.take_add, List.drop_drop, Nat.add_sub_cancel' hij]

theorem take_append_between (hij : i ≤ j) : text.take i ++ between text i j = text.take j := by
  have h : between text 0 i ++ between text i j = between text 0 j :=
    between_append_between (Nat.zero_le i) hij
  simpa [between] using h

/-- A piece of text that begins at an index and what follows it. -/
theorem between_of_append {spelling rest : List Char} (h : spelling ++ rest = text.drop i) :
    between text i (i + spelling.length) = spelling ∧ text.drop (i + spelling.length) = rest := by
  constructor
  · rw [between, ← h, Nat.add_sub_cancel_left, List.take_left']
    rfl
  · rw [← List.drop_drop, ← h, List.drop_left']
    rfl

/-- The position of an index is reached by walking on from that of an index before. -/
theorem ofIndex_after_between (hij : i ≤ j) (hj : j ≤ text.length) :
    (Position.ofIndex text i).after (between text i j) = Position.ofIndex text j := by
  rw [Position.ofIndex_eq_after (hij.trans hj), Position.ofIndex_eq_after hj,
    ← Position.after_append, take_append_between hij]

end Between

/-! ## Pieces -/

/-- A token and the interval of indices that spells it. -/
structure Piece where
  token : Token
  start : Nat
  stop : Nat

/-- The interval of a piece spells its token, which keeps the position at which the interval
begins, and no longer interval would do. -/
structure Piece.Fits (text : List Char) (p : Piece) : Prop where
  start_lt_stop : p.start < p.stop
  stop_le : p.stop ≤ text.length
  pos_eq : p.token.pos = Position.ofIndex text p.start
  spells : Spells p.token.kind p.token.lexeme.toList (between text p.start p.stop)
  stops : Stops p.token.kind text[p.stop]?

/-- `Laid text i pieces n` says that the pieces stand one after the other between the indices `i`
and `n` of the text, with gaps before, between and behind them. -/
def Laid (text : List Char) : Nat → List Piece → Nat → Prop
  | i, [], n => i ≤ n ∧ IsGap (text.drop n) (between text i n)
  | i, p :: pieces, n =>
    (i ≤ p.start ∧ IsGap (text.drop p.start) (between text i p.start)) ∧ p.Fits text ∧
      Laid text p.stop pieces n

variable {text : List Char} {i j n : Nat} {pieces : List Piece}

/-- Pieces may have a further gap before them. -/
theorem Laid.gap_append (hij : i ≤ j) (hgap : IsGap (text.drop j) (between text i j))
    (h : Laid text j pieces n) : Laid text i pieces n := by
  cases pieces with
  | nil =>
    obtain ⟨hjn, hrest⟩ := h
    refine ⟨hij.trans hjn, ?_⟩
    rw [← between_append_between hij hjn]
    rw [← between_append_drop hjn] at hgap
    exact hgap.append hrest
  | cons p pieces =>
    obtain ⟨⟨hjp, hrest⟩, hfits, hmore⟩ := h
    refine ⟨⟨hij.trans hjp, ?_⟩, hfits, hmore⟩
    rw [← between_append_between hij hjp]
    rw [← between_append_drop hjp] at hgap
    exact hgap.append hrest

/-- A piece may stand before others without a gap. -/
theorem Laid.cons {p : Piece} (hfits : p.Fits text) (h : Laid text p.stop pieces n) :
    Laid text p.start (p :: pieces) n :=
  ⟨⟨le_rfl, by rw [between_self]; exact .none⟩, hfits, h⟩

/-- A piece at its place makes its token. -/
theorem Piece.Fits.lexFrom_eq {p : Piece} (h : p.Fits text) :
    lexFrom (.ofIndex text p.start) (text.drop p.start) =
      (p.token :: ·) <$> lexFrom (.ofIndex text p.stop) (text.drop p.stop) := by
  have hstops : Stops p.token.kind (text.drop p.stop).head? := by
    rw [List.head?_drop]
    exact h.stops
  have htoken : p.token =
      ⟨p.token.kind, String.ofList p.token.lexeme.toList, .ofIndex text p.start⟩ := by
    rw [String.ofList_toList, ← h.pos_eq]
  rw [← between_append_drop h.start_lt_stop.le, lexFrom_spelling _ h.spells hstops, ← htoken,
    ofIndex_after_between h.start_lt_stop.le h.stop_le]

/-- What is laid over a part of a text is lexed as the tokens of its pieces. -/
theorem lexFrom_laid (h : Laid text i pieces n) (hn : n ≤ text.length) :
    lexFrom (.ofIndex text i) (text.drop i) =
      (pieces.map Piece.token ++ ·) <$> lexFrom (.ofIndex text n) (text.drop n) := by
  induction pieces generalizing i with
  | nil =>
    obtain ⟨hin, hgap⟩ := h
    rw [← between_append_drop hin, lexFrom_gap _ hgap, ofIndex_after_between hin hn]
    simp
  | cons p pieces ih =>
    obtain ⟨⟨hip, hgap⟩, hfits, hmore⟩ := h
    have hstart : p.start ≤ text.length := hfits.start_lt_stop.le.trans hfits.stop_le
    rw [← between_append_drop hip, lexFrom_gap _ hgap, ofIndex_after_between hip hstart,
      hfits.lexFrom_eq, ih hmore]
    simp

/-! ## The cut that the lexer makes -/

/-- The token that stands behind the last piece of a text. -/
def endToken (text : List Char) : Token :=
  ⟨.endOfInput, "", .ofIndex text text.length⟩

theorem lexFrom_end (text : List Char) :
    lexFrom (.ofIndex text text.length) (text.drop text.length) = .ok [endToken text] := by
  rw [List.drop_length, lexFrom]
  rfl

/-- A piece of a text that begins at an index is an interval from that index on. -/
theorem interval_of_append {spelling rest : List Char} (h : spelling ++ rest = text.drop i)
    (hne : spelling ≠ []) :
    ∃ j, i < j ∧ j ≤ text.length ∧ between text i j = spelling ∧ text.drop j = rest := by
  obtain ⟨hbetween, hdrop⟩ := between_of_append h
  have hpos := List.length_pos_iff.2 hne
  have hlength := congrArg List.length h
  rw [List.length_append, List.length_drop] at hlength
  exact ⟨i + spelling.length, by omega, by omega, hbetween, hdrop⟩

/-- From an index on, pieces can be laid over a text up to its end, or up to a step of the lexer
that fails. -/
theorem exists_laid_upTo (hi : i ≤ text.length) :
    ∃ pieces n, Laid text i pieces n ∧ n ≤ text.length ∧
      (n = text.length ∨ ∃ c cs e, text.drop n = c :: cs ∧
        (scan c cs).error? (.ofIndex text n) c = some e) := by
  -- The induction is on the characters that are left: each step of the lexer takes some.
  induction hleft : text.length - i using Nat.strongRecOn generalizing i with
  | ind left ih =>
    have hhere : Laid text i [] i := ⟨le_rfl, by rw [between_self]; exact .none⟩
    cases hdrop : text.drop i with
    | nil => exact ⟨[], i, hhere, hi, .inl (le_antisymm hi (List.drop_eq_nil_iff.1 hdrop))⟩
    | cons c cs =>
      have hsplit := scan_isSplit c cs
      cases hscan : scan c cs with
      | gap spelling rest =>
        rw [hscan, ← hdrop] at hsplit
        obtain ⟨j, hij, hj, hbetween, hrest⟩ := interval_of_append hsplit.1 hsplit.2
        obtain ⟨pieces, n, hlaid, hstop⟩ := ih _ (by omega) hj rfl
        refine ⟨pieces, n, hlaid.gap_append hij.le ?_, hstop⟩
        rw [hbetween, hrest]
        exact isGap_of_scan hscan
      | token kind lexeme spelling rest =>
        rw [hscan, ← hdrop] at hsplit
        obtain ⟨j, hij, hj, hbetween, hrest⟩ := interval_of_append hsplit.1 hsplit.2
        obtain ⟨hspells, hstops⟩ := spells_of_scan hscan
        obtain ⟨pieces, n, hlaid, hstop⟩ := ih _ (by omega) hj rfl
        let piece : Piece := ⟨⟨kind, String.ofList lexeme, .ofIndex text i⟩, i, j⟩
        have hfits : piece.Fits text :=
          { start_lt_stop := hij
            stop_le := hj
            pos_eq := rfl
            spells := by
              rw [String.toList_ofList, hbetween]
              exact hspells
            stops := by
              rw [← List.head?_drop, hrest]
              exact hstops }
        exact ⟨piece :: pieces, n, hlaid.cons hfits, hstop⟩
      | stray | badEscape before bad | unterminated =>
        have herror : ∃ e, (scan c cs).error? (.ofIndex text i) c = some e := by
          rw [hscan]
          exact ⟨_, rfl⟩
        obtain ⟨e, he⟩ := herror
        exact ⟨[], i, hhere, hi, .inr ⟨c, cs, e, hdrop, he⟩⟩

/-- The tokens that a text makes from an index on can be laid over the rest of the text. -/
theorem exists_laid_of_lexFrom {tokens : List Token} (hi : i ≤ text.length)
    (h : lexFrom (.ofIndex text i) (text.drop i) = .ok tokens) :
    ∃ pieces, tokens = pieces.map Piece.token ++ [endToken text] ∧
      Laid text i pieces text.length := by
  obtain ⟨pieces, n, hlaid, hn, rfl | ⟨c, cs, e, hdrop, herror⟩⟩ := exists_laid_upTo hi
  · rw [lexFrom_laid hlaid le_rfl, lexFrom_end] at h
    exact ⟨pieces, (Except.ok.inj h).symm, hlaid⟩
  · rw [lexFrom_laid hlaid hn, hdrop, lexFrom_of_scan_error herror] at h
    cases h

/-- If a text fails from an index on, then pieces can be laid over it up to the step that fails. -/
theorem exists_fault_of_lexFrom {e : LexError} (hi : i ≤ text.length)
    (h : lexFrom (.ofIndex text i) (text.drop i) = .error e) :
    ∃ pieces n c cs, Laid text i pieces n ∧ text.drop n = c :: cs ∧
      (scan c cs).error? (.ofIndex text n) c = some e := by
  obtain ⟨pieces, n, hlaid, hn, rfl | ⟨c, cs, e', hdrop, herror⟩⟩ := exists_laid_upTo hi
  · rw [lexFrom_laid hlaid le_rfl, lexFrom_end] at h
    cases h
  · rw [lexFrom_laid hlaid hn, hdrop, lexFrom_of_scan_error herror] at h
    obtain rfl := Except.error.inj h
    exact ⟨pieces, n, c, cs, hlaid, hdrop, herror⟩

/-- No piece of a text is the end of input. -/
theorem Laid.kind_ne_endOfInput (h : Laid text i pieces n) :
    ∀ p ∈ pieces, p.token.kind ≠ .endOfInput := by
  induction pieces generalizing i with
  | nil => simp
  | cons p pieces ih =>
    obtain ⟨-, hfits, hmore⟩ := h
    intro q hq
    rcases List.mem_cons.1 hq with rfl | hq
    · intro hkind
      have hspells := hfits.spells
      rw [hkind] at hspells
      cases hspells
    · exact ih hmore q hq

/-- The pieces that are laid over a text fit. -/
theorem Laid.fits (h : Laid text i pieces n) : ∀ p ∈ pieces, p.Fits text := by
  induction pieces generalizing i with
  | nil => simp
  | cons p pieces ih =>
    obtain ⟨-, hfits, hmore⟩ := h
    exact List.forall_mem_cons.2 ⟨hfits, ih hmore⟩

/-- The tokens of a text can be laid over it, and behind them stands the end of input. -/
theorem exists_laid_of_ofText {text : String} {tokens : List Token}
    (h : Token.ofText text = .ok tokens) :
    ∃ pieces, tokens = pieces.map Piece.token ++ [endToken text.toList] ∧
      (∀ p ∈ pieces, p.token.kind ≠ .endOfInput) ∧
      Laid text.toList 0 pieces text.toList.length := by
  have hstart : lexFrom (.ofIndex text.toList 0) (text.toList.drop 0) = .ok tokens := h
  obtain ⟨pieces, htokens, hlaid⟩ := exists_laid_of_lexFrom (Nat.zero_le _) hstart
  exact ⟨pieces, htokens, hlaid.kind_ne_endOfInput, hlaid⟩

/-- Every token of a text but the end of input has a piece of the text that fits. -/
theorem exists_piece_of_mem_ofText {text : String} {tokens : List Token} {t : Token}
    (h : Token.ofText text = .ok tokens) (ht : t ∈ tokens) (hend : t.isEnd = false) :
    ∃ p : Piece, p.Fits text.toList ∧ p.token = t := by
  obtain ⟨pieces, rfl, -, hlaid⟩ := exists_laid_of_ofText h
  rcases List.mem_append.1 ht with ht | ht
  · obtain ⟨p, hp, rfl⟩ := List.mem_map.1 ht
    exact ⟨p, hlaid.fits p hp, rfl⟩
  · obtain rfl := List.mem_singleton.1 ht
    cases hend

/-- A text makes a row of tokens exactly if the row closes with the end of input, at the end of the
text and nowhere else, and the tokens before it can be laid over the whole text. -/
theorem ofText_eq_ok_iff (text : String) (tokens : List Token) :
    Token.ofText text = .ok tokens ↔
      ∃ pieces : List Piece,
        tokens = pieces.map Piece.token ++
          [⟨.endOfInput, "", .ofIndex text.toList text.toList.length⟩] ∧
        (∀ p ∈ pieces, p.token.kind ≠ .endOfInput) ∧
        Laid text.toList 0 pieces text.toList.length := by
  constructor
  · exact exists_laid_of_ofText
  · rintro ⟨pieces, rfl, -, hlaid⟩
    show lexFrom (.ofIndex text.toList 0) (text.toList.drop 0) = _
    rw [lexFrom_laid hlaid le_rfl, lexFrom_end]
    rfl

end CrateNotation
