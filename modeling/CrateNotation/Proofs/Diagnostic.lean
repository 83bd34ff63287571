import CrateNotation.Diagnostic
import CrateNotation.Proofs.Build.Blame
import CrateNotation.Proofs.Source.Lines
import CrateNotation.Proofs.Text.OneLine
import CrateNotation.Proofs.Token.Fault
import CrateNotation.Proofs.Tree.Lexable

/-!
# What a diagnostic shows

Every error that is found in a text and has a position is about one index of the text.  Its
diagnostic ends with two rows: the line of the index behind its number, and a caret under the index.

An error of the lexer is about a character that it fails at.  An error of a reader or of a builder
is blamed on a token, and is about the index at which the spelling of the token begins.

## Main Definitions

* `Token.BeginsAt`, `ParseError.PointsTo` — which index an error is about
* `ParseError.RaisedFor` — the errors that are raised for a text
* `Marks` — two rows that mark an index
* `Pinpoints` — a position is that of one index, and the rows that are shown mark it

## Main Statements

* `diagnostics_pinpoint` — every diagnostic of an error in a text marks the index it is about
-/

namespace CrateNotation

/-! ## The rows that are shown -/

/-- The rows of what is shown. -/
def rows (shown : String) : List (List Char) :=
  shown.toList.splitOn '\n'

/-- What stands before a line in the row that shows it. -/
def linePrefix (number : Int) : List Char :=
  ' ' :: (toString number).toList ++ [' ', '|', ' ']

/-- `Marks text i above below` says that the row `above` shows the line of index `i`, and that there
is nothing in the row `below` but a bar and a caret that stands under the index. -/
structure Marks (text : List Char) (i : Nat) (above below : List Char) : Prop where
  above_eq : above =
    linePrefix (Position.ofIndex text i).line ++ (lineBefore text i ++ lineFrom text i)
  below_eq : ∃ gutter blanks, below =
    List.replicate gutter ' ' ++ '|' :: (List.replicate blanks ' ' ++ ['^'])
  /-- The caret stands under the index. -/
  length_below : below.length =
    (linePrefix (Position.ofIndex text i).line ++ lineBefore text i).length + 1
  /-- What stands above the caret is the character at the index. -/
  above_caret : above[below.length - 1]? = text[i]?.filter (· != '\n')
  /-- If the line ends there, the caret stands one past the end. -/
  length_above : text[i]? = some '\n' → above.length + 1 = below.length

section Rows

variable {text : List Char} {i : Nat}

/-- The row with the line of an index. -/
def rowAbove (text : List Char) (i : Nat) : List Char :=
  linePrefix (Position.ofIndex text i).line ++ (lineBefore text i ++ lineFrom text i)

/-- The row with the caret under an index. -/
def rowBelow (text : List Char) (i : Nat) : List Char :=
  ' ' :: (List.replicate (toString (Position.ofIndex text i).line).length ' ' ++
    [' ', '|', ' '] ++ List.replicate (lineBefore text i).length ' ' ++ ['^'])

theorem length_linePrefix (number : Int) :
    (linePrefix number).length = (toString number).length + 4 := by
  simp only [linePrefix, List.length_cons, List.length_append, List.length_nil,
    String.length_toList]

theorem length_rowBelow (text : List Char) (i : Nat) : (rowBelow text i).length =
    (linePrefix (Position.ofIndex text i).line ++ lineBefore text i).length + 1 := by
  rw [List.length_append, length_linePrefix, rowBelow]
  simp only [List.length_cons, List.length_append, List.length_replicate, List.length_nil]
  omega

/-- The line of an index and the caret under it mark the index. -/
theorem marks_rows (text : List Char) (i : Nat) :
    Marks text i (rowAbove text i) (rowBelow text i) where
  above_eq := rfl
  below_eq := by
    refine ⟨1 + (toString (Position.ofIndex text i).line).length + 1,
      1 + (lineBefore text i).length, ?_⟩
    rw [rowBelow, List.replicate_add, List.replicate_add, List.replicate_add]
    simp only [List.replicate_one, List.cons_append, List.nil_append, List.append_assoc]
  length_below := length_rowBelow text i
  above_caret := by
    rw [length_rowBelow, Nat.add_sub_cancel, rowAbove, List.getElem?_append_right (by simp),
      List.length_append, Nat.add_sub_cancel_left, getElem?_line]
  length_above := by
    intro hfeed
    have hfrom : lineFrom text i = [] := lineFrom_eq_nil (by simp [hfeed])
    rw [length_rowBelow, rowAbove, hfrom, List.append_nil]

theorem not_mem_rowAbove (text : List Char) (i : Nat) : '\n' ∉ rowAbove text i := by
  have hnumber : '\n' ∉ (toString (Position.ofIndex text i).line).toList := oneLine_toString_int _
  simp only [rowAbove, linePrefix, List.cons_append, List.mem_cons, List.mem_append, hnumber,
    not_mem_lineBefore, not_mem_lineFrom]
  decide

theorem not_mem_rowBelow (text : List Char) (i : Nat) : '\n' ∉ rowBelow text i := by
  simp [rowBelow]

/-- The diagnostic for the position of an index never shows the message alone. -/
theorem toList_diagnostic (message source : String) {i : Nat} (hi : i ≤ source.toList.length) :
    (diagnostic message (some (.ofIndex source.toList i)) source).toList =
      message.toList ++ '\n' :: (rowAbove source.toList i ++ '\n' :: rowBelow source.toList i) := by
  have hcolumn : ((Position.ofIndex source.toList i).column - 1).toNat =
      (lineBefore source.toList i).length := by
    rw [Position.column_ofIndex hi]
    omega
  rw [diagnostic]
  dsimp only
  rw [Locator.lineText?_ofIndex]
  show (message ++ "\n " ++ toString _ ++ " | " ++ String.ofList _ ++ "\n " ++ spaces _ ++ " | " ++
    (spaces _ ++ "^")).toList = _
  rw [spaces, spaces, hcolumn, Int.toNat_natCast, rowAbove, rowBelow, linePrefix]
  simp only [String.toList_append, String.toList_ofList, List.append_assoc, List.cons_append,
    List.nil_append]
  rfl

/-- A text without line feeds is a single row. -/
theorem splitOn_of_not_mem {row : List Char} (h : '\n' ∉ row) : row.splitOn '\n' = [row] := by
  apply List.splitOnP_eq_singleton
  intro c hc
  rw [beq_eq_false_iff_ne]
  rintro rfl
  exact h hc

/-- The rows behind a line feed follow those before it. -/
theorem splitOn_append_feed (first more : List Char) :
    (first ++ '\n' :: more).splitOn '\n' = first.splitOn '\n' ++ more.splitOn '\n' :=
  List.splitOnP_append_cons first more rfl

/-- The last rows of the diagnostic for the position of an index mark it. -/
theorem rows_diagnostic (message source : String) {i : Nat} (hi : i ≤ source.toList.length) :
    rows (diagnostic message (some (.ofIndex source.toList i)) source) =
      message.toList.splitOn '\n' ++ [rowAbove source.toList i, rowBelow source.toList i] := by
  rw [rows, toList_diagnostic message source hi, splitOn_append_feed, splitOn_append_feed,
    splitOn_of_not_mem (not_mem_rowAbove _ _), splitOn_of_not_mem (not_mem_rowBelow _ _)]
  rfl

end Rows

/-! ## The index that an error is about -/

/-- `t.BeginsAt text i` says that `t` is a token of the text and that its spelling begins at index
`i`. -/
def Token.BeginsAt (t : Token) (text : String) (i : Nat) : Prop :=
  ∃ tokens, Token.ofText text = .ok tokens ∧ t ∈ tokens ∧
    ∃ p : Piece, p.Fits text.toList ∧ p.token = t ∧ p.start = i

namespace ParseError

/-- `e.PointsTo text i` says that the error `e` is about what stands at index `i` of the text. -/
def PointsTo (text : String) (i : Nat) : ParseError → Prop
  | unexpectedToken lexeme _ => ∃ t : Token, t.BeginsAt text i ∧ t.lexeme = lexeme
  | expected _ _ _ => ∃ t : Token, t.BeginsAt text i
  | unterminatedList _ | nestingTooDeep _ _ => text.toList[i]? = some '('
  | unexpectedClose _ => text.toList[i]? = some ')'
  | emptyInput => False
  | lexical error => error.PointsTo text.toList i

/-- `e.RaisedFor text` says that the error `e` is raised where the text is read in some way, or where
a node is built from a tree that is read from it. -/
inductive RaisedFor (text : String) : ParseError → Prop where
  | first {options : ReadOptions} {e : ParseError} (read : Tree.ofText options text = .error e) :
    RaisedFor text e
  | all {options : ReadOptions} {e : ParseError} (read : Tree.allOfText options text = .error e) :
    RaisedFor text e
  | built {t : Tree} {k : NodeKind} {start stop : Int} {e : ParseError} (read : t.ReadFrom text)
    (start_nonneg : 0 ≤ start)
    (built : (t.build k).runFrom start = (.error (.invalid e), stop)) : RaisedFor text e

end ParseError

section Pointing

variable {text : String} {tokens : List Token} {t : Token} {i : Nat} {e : ParseError}

/-- The first character of a piece stands where the piece begins. -/
theorem Piece.Fits.getElem?_start {text : List Char} {p : Piece} (h : p.Fits text) :
    text[p.start]? = (between text p.start p.stop).head? := by
  have hne : p.stop - p.start ≠ 0 := Nat.sub_ne_zero_of_lt h.start_lt_stop
  rw [between, List.head?_take, if_neg hne, List.head?_drop]

/-- A token of a text begins at an index, whose position it keeps. -/
theorem exists_beginsAt (h : Token.ofText text = .ok tokens) (ht : t ∈ tokens)
    (hend : t.isEnd = false) :
    ∃ i < text.toList.length, t.pos = .ofIndex text.toList i ∧ t.BeginsAt text i := by
  obtain ⟨p, hfits, rfl⟩ := exists_piece_of_mem_ofText h ht hend
  exact ⟨p.start, Nat.lt_of_lt_of_le hfits.start_lt_stop hfits.stop_le, hfits.pos_eq, tokens, h, ht,
    p, hfits, rfl, rfl⟩

/-- Where a token begins, its spelling does. -/
theorem Token.BeginsAt.exists_spells (h : t.BeginsAt text i) :
    ∃ spelling, Spells t.kind t.lexeme.toList spelling ∧ text.toList[i]? = spelling.head? := by
  obtain ⟨-, -, -, p, hfits, rfl, rfl⟩ := h
  exact ⟨_, hfits.spells, hfits.getElem?_start⟩

/-- Where a parenthesis begins, it stands. -/
theorem Token.BeginsAt.getElem?_of_openParen (h : t.BeginsAt text i) (hkind : t.kind = .openParen) :
    text.toList[i]? = some '(' := by
  obtain ⟨spelling, hspells, hchar⟩ := h.exists_spells
  rw [hkind] at hspells
  generalize t.lexeme.toList = lexeme at hspells
  cases hspells
  exact hchar

theorem Token.BeginsAt.getElem?_of_closeParen (h : t.BeginsAt text i)
    (hkind : t.kind = .closeParen) : text.toList[i]? = some ')' := by
  obtain ⟨spelling, hspells, hchar⟩ := h.exists_spells
  rw [hkind] at hspells
  generalize t.lexeme.toList = lexeme at hspells
  cases hspells
  exact hchar

/-- An error that is blamed on a token of a text is about the index at which the token begins. -/
theorem ParseError.BlamesOneOf.exists_index {pos : Position} (h : e.BlamesOneOf tokens)
    (htokens : Token.ofText text = .ok tokens) (hpos : e.pos? = some pos) :
    ∃ i < text.toList.length, pos = .ofIndex text.toList i ∧ e.PointsTo text i := by
  cases e with
  | unexpectedToken lexeme p =>
    obtain rfl := Option.some.inj hpos
    obtain ⟨t, ht, hend, rfl, rfl⟩ := h
    obtain ⟨i, hi, htpos, hbegins⟩ := exists_beginsAt htokens ht hend
    exact ⟨i, hi, htpos, t, hbegins, rfl⟩
  | expected needed found p =>
    obtain rfl := Option.some.inj hpos
    obtain ⟨t, ht, hend, rfl⟩ := h
    obtain ⟨i, hi, htpos, hbegins⟩ := exists_beginsAt htokens ht hend
    exact ⟨i, hi, htpos, t, hbegins⟩
  | unterminatedList p | nestingTooDeep limit p =>
    obtain rfl := Option.some.inj hpos
    obtain ⟨t, ht, hend, rfl, hkind⟩ := h
    obtain ⟨i, hi, htpos, hbegins⟩ := exists_beginsAt htokens ht hend
    exact ⟨i, hi, htpos, hbegins.getElem?_of_openParen hkind⟩
  | unexpectedClose p =>
    obtain rfl := Option.some.inj hpos
    obtain ⟨t, ht, hend, rfl, hkind⟩ := h
    obtain ⟨i, hi, htpos, hbegins⟩ := exists_beginsAt htokens ht hend
    exact ⟨i, hi, htpos, hbegins.getElem?_of_closeParen hkind⟩
  | emptyInput => cases hpos
  | lexical error => exact h.elim

/-- An error that is raised for a text is of the lexer, or is blamed on one of the tokens. -/
theorem ParseError.RaisedFor.cases_lexical (h : e.RaisedFor text) :
    (∃ error, Token.ofText text = .error error ∧ e = .lexical error) ∨
      ∃ tokens, Token.ofText text = .ok tokens ∧ e.BlamesOneOf tokens := by
  cases hlex : Token.ofText text with
  | error error =>
    refine .inl ⟨error, rfl, ?_⟩
    cases h with
    | first read =>
      rw [Tree.ofText_of_lexError hlex] at read
      exact (Except.error.inj read).symm
    | all read =>
      rw [Tree.allOfText_of_lexError hlex] at read
      exact (Except.error.inj read).symm
    | built read =>
      obtain ⟨tokens, htokens, -⟩ := read.exists_tokens
      cases hlex.symm.trans htokens
  | ok tokens =>
    refine .inr ⟨tokens, rfl, ?_⟩
    cases h with
    | first read =>
      rw [Tree.ofText_of_tokens hlex] at read
      exact Tree.blamesOneOf_of_readFirst read
    | all read =>
      rw [Tree.allOfText_of_tokens hlex] at read
      exact Tree.blamesOneOf_of_readAll (Int.natCast_nonneg _) (List.Subset.refl tokens) read
    | built read start_nonneg built =>
      obtain ⟨tokens', htokens, -, htraces⟩ := read.exists_tokens
      obtain rfl := Except.ok.inj (hlex.symm.trans htokens)
      exact Tree.blamesOneOf_of_runFrom start_nonneg htraces built

/-- An error that is raised for a text is about the index whose position it has. -/
theorem ParseError.RaisedFor.exists_index {pos : Position} (h : e.RaisedFor text)
    (hpos : e.pos? = some pos) :
    ∃ i < text.toList.length, pos = .ofIndex text.toList i ∧ e.PointsTo text i := by
  obtain ⟨error, hlex, rfl⟩ | ⟨tokens, htokens, hblames⟩ := h.cases_lexical
  · obtain ⟨i, hi, hindex, hpoints⟩ := exists_index_of_ofText hlex
    refine ⟨i, hi, ?_, hpoints⟩
    exact Option.some.inj (hpos.symm.trans hindex)
  · exact hblames.exists_index htokens hpos

end Pointing

/-! ## Pinpointing -/

/-- `Pinpoints text i pos shown` says that `pos` is the position of the index `i` of the text and of
no other, and that the last rows of what is shown mark the index. -/
structure Pinpoints (text : String) (i : Nat) (pos : Position) (shown : String) : Prop where
  index_lt : i < text.toList.length
  pos_eq_iff : ∀ j < text.toList.length,
    pos = ((Locator.ofText text.toList).position j).1 ↔ j = i
  marks : ∃ before above below, rows shown = before ++ [above, below] ∧
    Marks text.toList i above below

/-- A message is shown with marks for the index whose position it has. -/
theorem pinpoints_diagnostic (message : String) {text : String} {i : Nat}
    (hi : i < text.toList.length) :
    Pinpoints text i (.ofIndex text.toList i)
      (diagnostic message (some (.ofIndex text.toList i)) text) where
  index_lt := hi
  pos_eq_iff := by
    intro j hj
    rw [Locator.position_ofText]
    constructor
    · intro hindex
      exact (Position.ofIndex_inj hi.le hj.le hindex).symm
    · rintro rfl
      rfl
  marks := ⟨_, _, _, rows_diagnostic message text hi.le, marks_rows text.toList i⟩

/-- Every error that has a position and is raised for a text is about one index of the text, whether it
is raised by the lexer, by a reader or by a builder.  Its position is that of this index and of no
other.  Its diagnostic ends with the line of the index and a caret under it. -/
theorem diagnostics_pinpoint (text : String) :
    (∀ (e : LexError) (pos : Position), Token.ofText text = .error e → e.pos? = some pos →
      ∃ i, Pinpoints text i pos (e.diagnostic text) ∧ e.PointsTo text.toList i) ∧
    (∀ (e : ParseError) (pos : Position), e.RaisedFor text → e.pos? = some pos →
      ∃ i, Pinpoints text i pos (e.diagnostic text) ∧ e.PointsTo text i) := by
  constructor
  · intro e pos hlex hpos
    obtain ⟨i, hi, hindex, hpoints⟩ := exists_index_of_ofText hlex
    obtain rfl := Option.some.inj (hpos.symm.trans hindex)
    refine ⟨i, ?_, hpoints⟩
    rw [LexError.diagnostic, hindex]
    exact pinpoints_diagnostic e.message hi
  · intro e pos hraised hpos
    obtain ⟨i, hi, rfl, hpoints⟩ := hraised.exists_index hpos
    refine ⟨i, ?_, hpoints⟩
    rw [ParseError.diagnostic, hpos]
    exact pinpoints_diagnostic e.message hi

/-- An escape in the second line, and a symbol there instead of a number, are marked behind a
character of two bytes. -/
theorem diagnostics_pinpoint_second_line :
    let escape := "; é\n(a \"é\\q\")"
    let badEscape : LexError := .invalidEscape "q" ⟨12, 2, 7⟩
    let span := "; é\n(Span :lo \"é\" :hi 1)"
    let notNumber : ParseError := .expected "number" "string 'é'" ⟨15, 2, 11⟩
    (Token.ofText escape = .error badEscape ∧
      ∃ i, Pinpoints escape i ⟨12, 2, 7⟩ (badEscape.diagnostic escape) ∧
        badEscape.PointsTo escape.toList i) ∧
    (notNumber.RaisedFor span ∧
      ∃ i, Pinpoints span i ⟨15, 2, 11⟩ (notNumber.diagnostic span) ∧
        notNumber.PointsTo span i) := by
  intro escape badEscape span notNumber
  have hescape : Token.ofText escape = .error badEscape := by decide +kernel
  have hspan : notNumber.RaisedFor span := by
    let t : Tree := .list
      [.leaf (.symbol "Span") ⟨6, 2, 2⟩, .leaf (.keyword "lo") ⟨11, 2, 7⟩,
        .leaf (.string "é") ⟨15, 2, 11⟩, .leaf (.keyword "hi") ⟨20, 2, 15⟩,
        .leaf (.number "1") ⟨24, 2, 19⟩] ⟨5, 2, 1⟩
    have hread : Tree.ofText {} span = .ok t := by decide +kernel
    have hbuild : (t.build .span).runFrom 0 = (.error (.invalid notNumber), 0) := by rfl
    exact .built (.first hread) (Int.le_refl 0) hbuild
  exact ⟨⟨hescape, (diagnostics_pinpoint escape).1 badEscape _ hescape rfl⟩,
    hspan, (diagnostics_pinpoint span).2 notNumber _ hspan rfl⟩

example : ParseError.diagnostic (.expected "number" "string 'é'" ⟨15, 2, 11⟩)
      "; é\n(Span :lo \"é\" :hi 1)" =
    "Expected number, found string 'é' at line 2, column 11\n" ++
      " 2 | (Span :lo \"é\" :hi 1)\n" ++
      "   |           ^" := by
  decide +kernel

end CrateNotation
