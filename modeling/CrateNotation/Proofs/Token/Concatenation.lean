import CrateNotation.Proofs.Token.Prefix
import CrateNotation.Proofs.Tree.Relocation

/-!
# Texts below each other

A text may be put below another, with a line feed in between.  The line feed ends whatever the upper
text ends with, be it a symbol that would go on or a comment, and it belongs to no token.  So the
lexer takes from the upper text what it takes from it alone.  When it comes to the lower text it is
where it would be in that text alone, but for the bytes and the lines above.

The lexer never asks where it is.  So in the lower text it does what it would do in this text alone,
at other places.

## Main Definitions

* `Position.below` — the position of a place in the lower text
* `Token.relocate`, `relocateLexed` — tokens, and what lexing comes to, at other places

## Main Statements

* `lexFrom_relocate` — the lexer does the same at other places
* `ofText_below` — the tokens of a text below another
-/

namespace CrateNotation

/-! ## Other places -/

/-- Where the position `p` of a text is, if this stands below the text `upper`. -/
def Position.below (upper : List Char) (p : Position) : Position where
  offset := p.offset + (utf8Length upper + 1 : Nat)
  line := p.line + (upper.count '\n' + 1 : Nat)
  column := p.column

/-- A way to put places elsewhere that follows a walk over characters. -/
def Position.Follows (φ : Position → Position) : Prop :=
  ∀ (p : Position) (c : Char), (φ p).next c = φ (p.next c)

/-- The same token at another place. -/
def Token.relocate (φ : Position → Position) (t : Token) : Token :=
  { t with pos := φ t.pos }

/-- What lexing comes to, at other places. -/
def relocateLexed (φ : Position → Position) :
    Except LexError (List Token) → Except LexError (List Token)
  | .ok tokens => .ok (tokens.map (Token.relocate φ))
  | .error e => .error (e.relocate φ)

namespace Position

/-- A step in the lower text is a step in the text alone. -/
theorem follows_below (upper : List Char) : Follows (below upper) := by
  intro p c
  rw [next, next]
  split
  · simp only [below, mk.injEq, and_true]
    omega
  · simp only [below, mk.injEq, and_true]
    omega

/-- The lower text begins one character behind the upper one. -/
theorem next_feed_after_start (upper : List Char) :
    (start.after upper).next '\n' = start.below upper := by
  have hsize : ('\n' : Char).utf8Size = 1 := by decide
  rw [after_start, next, if_pos rfl, hsize, below, start, mk.injEq]
  refine ⟨?_, ?_, rfl⟩
  · simp
  · simp [Int.add_assoc]

theorem Follows.after {φ : Position → Position} (h : Follows φ) (p : Position) (text : List Char) :
    (φ p).after text = φ (p.after text) := by
  induction text generalizing p with
  | nil => rfl
  | cons c text ih => rw [after_cons, after_cons, h, ih]

end Position

/-! ## Lexing at other places -/

section Relocation

variable {φ : Position → Position}

/-- A step that fails fails at the other place as well. -/
theorem Scan.error?_relocate (hφ : Position.Follows φ) (pos : Position) (c : Char) (s : Scan) :
    s.error? (φ pos) c = (s.error? pos c).map (LexError.relocate φ) := by
  cases s with
  | badEscape before bad => rw [error?, error?, hφ.after, Option.map_some, LexError.relocate]
  | gap | token | stray | unterminated => rfl

theorem relocateLexed_cons (t : Token) (lexed : Except LexError (List Token)) :
    relocateLexed φ ((t :: ·) <$> lexed) = (t.relocate φ :: ·) <$> relocateLexed φ lexed := by
  cases lexed <;> rfl

/-- The lexer does the same wherever a text begins. -/
theorem lexFrom_relocate (hφ : Position.Follows φ) (pos : Position) (text : List Char) :
    lexFrom (φ pos) text = relocateLexed φ (lexFrom pos text) := by
  -- The induction is on the characters that are left: each step of the lexer takes some.
  induction hlength : text.length using Nat.strongRecOn generalizing pos text with
  | ind n ih =>
    cases text with
    | nil =>
      rw [lexFrom, lexFrom]
      rfl
    | cons c cs =>
      have hsplit := scan_isSplit c cs
      cases hscan : scan c cs with
      | gap spelling rest =>
        rw [hscan] at hsplit
        have hlt : rest.length < n := hlength ▸ Scan.IsSplit.length_lt hsplit
        rw [lexFrom_of_scan_gap hscan, lexFrom_of_scan_gap hscan, hφ.after, ih _ hlt _ _ rfl]
      | token kind lexeme spelling rest =>
        rw [hscan] at hsplit
        have hlt : rest.length < n := hlength ▸ Scan.IsSplit.length_lt hsplit
        rw [lexFrom_of_scan_token hscan, lexFrom_of_scan_token hscan, hφ.after, ih _ hlt _ _ rfl,
          relocateLexed_cons]
        rfl
      | stray | badEscape before bad | unterminated =>
        have herror : ∃ e, (scan c cs).error? pos c = some e := by
          rw [hscan]
          exact ⟨_, rfl⟩
        obtain ⟨e, he⟩ := herror
        have hmoved : (scan c cs).error? (φ pos) c = some (e.relocate φ) := by
          rw [Scan.error?_relocate hφ, he]
          rfl
        rw [lexFrom_of_scan_error he, lexFrom_of_scan_error hmoved]
        rfl

end Relocation

/-! ## The upper text -/

section Upper

variable {upper : List Char} {i : Nat} {pieces : List Piece}

/-- The texts agree up to where the upper one ends. -/
theorem take_append_feed (upper lower : List Char) :
    (upper ++ '\n' :: lower).take upper.length = upper.take upper.length :=
  List.take_append_of_le_length le_rfl

/-- A gap of the upper text is one of both, since a line feed ends its last comment. -/
theorem IsGap.before_feed {rest gap : List Char} (h : IsGap rest gap) (lower : List Char) :
    IsGap (rest ++ '\n' :: lower) gap := by
  induction h with
  | none => exact .none
  | blank hblank _ ih => exact .blank hblank ih
  | @comment body gap line stop _ ih =>
    refine .comment line ?_ ih
    intro c hc
    rw [← List.append_assoc] at hc
    cases hempty : gap ++ rest with
    | nil =>
      rw [hempty] at hc
      exact (Option.some.inj hc).symm
    | cons d more =>
      rw [hempty] at hc
      apply stop
      rw [hempty]
      exact hc

/-- A line feed may follow every spelling. -/
theorem stops_feed (kind : TokenKind) : Stops kind (some '\n') := by
  apply stops_of_not_isSymbolChar
  intro c hc
  obtain rfl := Option.some.inj hc
  decide

/-- What is laid over the upper text is laid over both. -/
theorem Laid.before_feed (h : Laid upper i pieces upper.length) (lower : List Char) :
    Laid (upper ++ '\n' :: lower) i pieces upper.length := by
  have hagree := take_append_feed upper lower
  apply h.transfer hagree le_rfl
  · intro i _ hgap
    rw [between_congr hagree le_rfl, List.drop_append_of_le_length le_rfl]
    exact hgap.before_feed lower
  · intro kind _
    rw [List.getElem?_append_right le_rfl, Nat.sub_self]
    exact stops_feed kind

end Upper

/-- Below a text that has tokens, the tokens of another follow them at the places below, or its
error is found there. -/
theorem ofText_below {upper : String} {tokens : List Token} (h : Token.ofText upper = .ok tokens)
    (lower : String) :
    Token.ofText (upper ++ "\n" ++ lower) =
      (tokens.dropLast ++ ·) <$>
        relocateLexed (Position.below upper.toList) (Token.ofText lower) := by
  have hstart : lexFrom (.ofIndex upper.toList 0) (upper.toList.drop 0) = .ok tokens := h
  obtain ⟨pieces, rfl, hlaid⟩ := exists_laid_of_lexFrom (Nat.zero_le _) hstart
  have htext : (upper ++ "\n" ++ lower).toList = upper.toList ++ '\n' :: lower.toList := by
    rw [String.toList_append, String.toList_append, List.append_assoc]
    rfl
  have hfeed : (Position.start.after upper.toList).next '\n' = Position.start.below upper.toList :=
    Position.next_feed_after_start upper.toList
  have hend : Position.ofIndex (upper.toList ++ '\n' :: lower.toList) upper.toList.length =
      Position.start.after upper.toList := by
    rw [ofIndex_congr (take_append_feed upper.toList lower.toList) le_rfl,
      Position.ofIndex_eq_after le_rfl, List.take_length]
  have hle : upper.toList.length ≤ (upper.toList ++ '\n' :: lower.toList).length := by
    rw [List.length_append]
    exact Nat.le_add_right _ _
  calc
    Token.ofText (upper ++ "\n" ++ lower) =
        lexFrom (.ofIndex (upper.toList ++ '\n' :: lower.toList) 0)
          ((upper.toList ++ '\n' :: lower.toList).drop 0) := by
      rw [Token.ofText, htext]
      rfl
    _ = (pieces.map Piece.token ++ ·) <$>
        lexFrom (.after .start upper.toList) ('\n' :: lower.toList) := by
      rw [lexFrom_laid (hlaid.before_feed lower.toList) hle, hend, List.drop_left']
      rfl
    _ = (pieces.map Piece.token ++ ·) <$>
        lexFrom (Position.start.below upper.toList) lower.toList := by
      rw [lexFrom_blank _ (by decide), hfeed]
    _ = ((pieces.map Piece.token ++ [endToken upper.toList]).dropLast ++ ·) <$>
        relocateLexed (Position.below upper.toList) (Token.ofText lower) := by
      rw [lexFrom_relocate (Position.follows_below upper.toList), List.dropLast_concat]
      rfl

end CrateNotation
