import CrateNotation.Proofs.Build.Needed
import CrateNotation.Proofs.Diagnostic
import CrateNotation.Proofs.Tree.Calls
import CrateNotation.Proofs.Tree.Readings

/-!
# How errors are worded

What a message shows of a text is quoted, or is a symbol, a keyword or a number of the notation, or is
a number that is written anew.  None of these has a line feed in it, so the message is on one line and
the diagnostic has three rows.

There is one exception.  What follows the backslash of an invalid escape is shown as it stands in the
text, and a backslash can stand at the end of a line.  The message for such an escape is on two lines.

## Main Definitions

* `LexError.IsFeedEscape`, `ParseError.IsFeedEscape` — an error is about a backslash at the end of a
  line
* `Worded` — how a message and its diagnostic are divided into rows

## Main Statements

* `messages_on_one_line` — every error is worded in one line, except those about such a backslash
* `message_on_two_lines` — a message that is not
-/

namespace CrateNotation

open Text

/-! ## What is found -/

/-- What messages call a leaf of the notation is on one line. -/
theorem Leaf.Lexable.oneLine_describe {l : Leaf} (h : l.Lexable) : OneLine l.describe := by
  cases l with
  | symbol text =>
    show OneLine ("symbol " ++ text)
    exact oneLine_append.2 ⟨by decide, oneLine_of_isName h.1⟩
  | keyword name =>
    show OneLine ("keyword :" ++ name)
    exact oneLine_append.2 ⟨by decide, oneLine_of_isKeyword h⟩
  | string text =>
    show OneLine ("string " ++ quoted text)
    exact oneLine_append.2 ⟨by decide, oneLine_quoted text⟩
  | number text =>
    show OneLine ("number " ++ text)
    exact oneLine_append.2 ⟨by decide, oneLine_of_isNumber h⟩
  | nil => exact (by decide : OneLine "nil")

namespace Tree

theorem Lexable.oneLine_describe {t : Tree} (h : t.Lexable) :
    ∀ found ∈ t.describe?, OneLine found := by
  cases h with
  | leaf pos leaf_ok =>
    rintro _ ⟨⟩
    exact leaf_ok.oneLine_describe
  | @list elements pos elements_ok =>
    cases elements with
    | nil =>
      rintro _ ⟨⟩
      decide
    | cons t ts =>
      rintro _ ⟨⟩
      decide

/-- What is reported to be found in a tree that can be written is on one line. -/
theorem Reports.oneLine {t x : Tree} {needed found : String} (h : t.Reports x needed found)
    (hx : x.Lexable) : OneLine found := by
  cases h with
  | described description => exact hx.oneLine_describe found description
  | symbolText =>
    cases hx with
    | leaf pos text_ok => exact oneLine_of_isName text_ok.1
  | numberText =>
    cases hx with
    | leaf pos text_ok => exact oneLine_of_isNumber text_ok
  | numberValue => exact oneLine_toString_int _
  | endOfList => decide
  | missing => decide
  | backwards =>
    simp only [oneLine_append, oneLine_toString_int, and_true]
    decide

/-- An error that stops a build from a tree that can be written is worded in one line. -/
theorem oneLine_message_of_runFrom {t : Tree} {k : NodeKind} {start stop : Int} {e : ParseError}
    (ht : t.Lexable) (hstart : 0 ≤ start)
    (h : (t.build k).runFrom start = (.error (.invalid e), stop)) : OneLine e.message := by
  obtain ⟨needed, found, pos, x, rfl, hoccurs, -, hreports⟩ :=
    (faulty_of_runFrom hstart h).isReported
  have hfound : OneLine found := hreports.oneLine (hoccurs.lexable ht)
  have hneeded : OneLine needed :=
    (needsOneLine_build ht k).of_runFrom (t.isScripted_build k) hstart h nofun
  show OneLine ("Expected " ++ needed ++ ", found " ++ found ++ " at " ++ pos.describe)
  simp only [oneLine_append, oneLine_describe, hfound, hneeded, and_true]
  decide

end Tree

/-! ## Errors of the lexer and of readers -/

/-- The error is about a backslash in a string that stands at the end of a line. -/
def LexError.IsFeedEscape : LexError → Prop
  | invalidEscape found _ => found = "\n"
  | unexpectedChar .. | unterminatedString _ | unexpectedEnd => False

/-- The text is on two lines. -/
def TwoLines (text : String) : Prop :=
  ∃ first second, text = first ++ "\n" ++ second ∧ OneLine first ∧ OneLine second

theorem TwoLines.not_oneLine {text : String} (h : TwoLines text) : ¬OneLine text := by
  obtain ⟨first, second, rfl, -, -⟩ := h
  simp [OneLine]

/-- What stands before a text on two lines stands on the first. -/
theorem TwoLines.append {before text : String} (h : TwoLines text) (hbefore : OneLine before) :
    TwoLines (before ++ text) := by
  obtain ⟨first, second, rfl, hfirst, hsecond⟩ := h
  refine ⟨before ++ first, second, ?_, oneLine_append.2 ⟨hbefore, hfirst⟩, hsecond⟩
  simp only [String.append_assoc]

namespace LexError

variable {e : LexError}

/-- A backslash at the end of a line is shown with the end of the line. -/
theorem twoLines_message (h : e.IsFeedEscape) : TwoLines e.message := by
  cases e with
  | invalidEscape found pos =>
    obtain rfl : found = "\n" := h
    refine ⟨"Invalid escape sequence '\\", "' at " ++ pos.describe, rfl, by decide, ?_⟩
    exact oneLine_append.2 ⟨by decide, oneLine_describe pos⟩
  | unexpectedChar | unterminatedString | unexpectedEnd => exact h.elim

/-- Any other error that is about an index of a text is worded in one line. -/
theorem oneLine_message {text : List Char} {i : Nat} (h : e.PointsTo text i)
    (hfeed : ¬e.IsFeedEscape) : OneLine e.message := by
  cases e with
  | unexpectedChar found pos =>
    show OneLine ("Unexpected character " ++ quoted found ++ " at " ++ pos.describe)
    simp only [oneLine_append, oneLine_quoted, oneLine_describe, and_true]
    decide
  | unterminatedString pos =>
    show OneLine ("Unterminated string at " ++ pos.describe)
    exact oneLine_append.2 ⟨by decide, oneLine_describe pos⟩
  | invalidEscape found pos =>
    -- What the lexer finds is a single character, and not a line feed.
    obtain ⟨c, -, rfl⟩ := h
    have hc : OneLine (String.singleton c) := by
      have hne : '\n' ≠ c := by
        rintro rfl
        exact hfeed rfl
      simpa [OneLine] using hne
    show OneLine ("Invalid escape sequence '\\" ++ String.singleton c ++ ("' at " ++ pos.describe))
    simp only [oneLine_append, oneLine_describe, hc, and_true]
    decide
  | unexpectedEnd => decide

end LexError

/-- An error that a reader raises about a token is worded in one line. -/
theorem ParseError.IsAbout.oneLine_message {limit : Int} {t : Token} {e : ParseError}
    (h : e.IsAbout limit t) : OneLine e.message := by
  cases e with
  | unexpectedToken lexeme pos =>
    show OneLine ("Unexpected token " ++ quoted lexeme ++ " at " ++ pos.describe)
    simp only [oneLine_append, oneLine_quoted, oneLine_describe, and_true]
    decide
  | unterminatedList pos =>
    show OneLine ("Unterminated list at " ++ pos.describe)
    exact oneLine_append.2 ⟨by decide, oneLine_describe pos⟩
  | unexpectedClose pos =>
    show OneLine ("Unexpected closing parenthesis at " ++ pos.describe)
    exact oneLine_append.2 ⟨by decide, oneLine_describe pos⟩
  | emptyInput => decide
  | nestingTooDeep limit pos =>
    show OneLine ("Nesting deeper than " ++ toString limit ++ " levels at " ++ pos.describe)
    simp only [oneLine_append, oneLine_toString_int, oneLine_describe, and_true]
    decide
  | expected | lexical => exact h.elim

/-! ## Errors that are raised for a text -/

/-- The error is about a backslash in a string that stands at the end of a line. -/
def ParseError.IsFeedEscape : ParseError → Prop
  | lexical error => error.IsFeedEscape
  | unexpectedToken .. | expected .. | unterminatedList _ | unexpectedClose _ | emptyInput
  | nestingTooDeep .. => False

/-- An error that is raised for a text is worded in one line, unless it is of the lexer. -/
theorem ParseError.RaisedFor.oneLine_message {text : String} {tokens : List Token} {e : ParseError}
    (h : e.RaisedFor text) (htokens : Token.ofText text = .ok tokens) : OneLine e.message := by
  cases h with
  | @first options _ read =>
    rw [Tree.ofText_of_tokens htokens] at read
    have hhalts : Tree.Halts options.maxDepth tokens (Tree.readFirst options tokens) :=
      Tree.halts_readFirst (Tree.closed_of_ofText htokens)
    obtain ⟨t, -, habout⟩ := hhalts.blamed e read
    exact habout.oneLine_message
  | @all options _ read =>
    rw [Tree.allOfText_of_tokens htokens] at read
    have hhalts : Tree.Halts options.maxDepth tokens (Tree.readAll options.maxDepth tokens) :=
      Tree.halts_readAll (Tree.closed_of_ofText htokens)
    obtain ⟨t, -, habout⟩ := hhalts.blamed e read
    exact habout.oneLine_message
  | built read start_nonneg built =>
    exact Tree.oneLine_message_of_runFrom read.lexable start_nonneg built

/-! ## Rows of diagnostics -/

/-- How the message for an error and what is shown of it are divided into rows, where `feedEscape`
says whether the error is about a backslash at the end of a line. -/
structure Worded (text : String) (feedEscape : Prop) (message : String) (pos? : Option Position)
    (shown : String) : Prop where
  oneLine_iff : OneLine message ↔ ¬feedEscape
  /-- The message, the line and the caret are a row each. -/
  three_rows : ¬feedEscape → ∀ pos ∈ pos?, ∃ i above below, pos = .ofIndex text.toList i ∧
    Marks text.toList i above below ∧ rows shown = [message.toList, above, below]
  /-- The message takes one row more. -/
  four_rows : feedEscape → ∃ i first second above below, pos? = some (.ofIndex text.toList i) ∧
    Marks text.toList i above below ∧ message = first ++ "\n" ++ second ∧
    rows shown = [first.toList, second.toList, above, below]

/-- A message is divided in this way if it is on one line or two. -/
theorem worded_diagnostic {text message : String} {feedEscape : Prop} {pos? : Option Position}
    (hone : ¬feedEscape → OneLine message) (htwo : feedEscape → TwoLines message)
    (hsome : feedEscape → pos?.isSome)
    (hindex : ∀ pos ∈ pos?, ∃ i < text.toList.length, pos = .ofIndex text.toList i) :
    Worded text feedEscape message pos? (diagnostic message pos? text) where
  oneLine_iff := ⟨fun h hfeed => (htwo hfeed).not_oneLine h, hone⟩
  three_rows := by
    rintro hfeed pos ⟨⟩
    obtain ⟨i, hi, rfl⟩ := hindex pos rfl
    refine ⟨i, _, _, rfl, marks_rows text.toList i, ?_⟩
    rw [rows_diagnostic message text hi.le, splitOn_of_not_mem (hone hfeed)]
    rfl
  four_rows := by
    intro hfeed
    obtain ⟨pos, rfl⟩ := Option.isSome_iff_exists.1 (hsome hfeed)
    obtain ⟨i, hi, rfl⟩ := hindex pos rfl
    obtain ⟨first, second, rfl, hfirst, hsecond⟩ := htwo hfeed
    have hchars : (first ++ "\n" ++ second).toList = first.toList ++ '\n' :: second.toList := by
      simp
    refine ⟨i, first, second, _, _, rfl, marks_rows text.toList i, rfl, ?_⟩
    rw [rows_diagnostic _ text hi.le, hchars, splitOn_append_feed, splitOn_of_not_mem hfirst,
      splitOn_of_not_mem hsecond]
    rfl

/-- How an error of the lexer is worded. -/
theorem LexError.worded {text : String} {e : LexError} (h : Token.ofText text = .error e) :
    Worded text e.IsFeedEscape e.message e.pos? (e.diagnostic text) := by
  obtain ⟨i, hi, hpos, hpoints⟩ := exists_index_of_ofText h
  refine worded_diagnostic (e.oneLine_message hpoints) twoLines_message ?_ ?_
  · intro _
    rw [hpos]
    rfl
  · intro pos hmem
    rw [hpos] at hmem
    exact ⟨i, hi, (Option.some.inj hmem).symm⟩

/-- How an error in tokens or in a tree is worded. -/
theorem ParseError.RaisedFor.worded {text : String} {e : ParseError} (h : e.RaisedFor text) :
    Worded text e.IsFeedEscape e.message e.pos? (e.diagnostic text) := by
  obtain ⟨error, hlex, rfl⟩ | ⟨tokens, htokens, hblames⟩ := h.cases_lexical
  · -- Where an error of the lexer is wrapped, its message goes on behind another one.
    obtain ⟨i, hi, hpos, hpoints⟩ := exists_index_of_ofText hlex
    have hwrapper : OneLine "Lexer error: " := by decide
    refine worded_diagnostic (fun hfeed => ?_) (fun hfeed => ?_) (fun _ => ?_) fun pos hmem => ?_
    · exact oneLine_append.2 ⟨hwrapper, error.oneLine_message hpoints hfeed⟩
    · exact (LexError.twoLines_message hfeed).append hwrapper
    · rw [pos?, hpos]
      rfl
    · rw [pos?, hpos] at hmem
      exact ⟨i, hi, (Option.some.inj hmem).symm⟩
  · have hnot : ¬e.IsFeedEscape := by
      cases e with
      | lexical error => exact hblames.elim
      | _ => exact id
    refine worded_diagnostic (fun _ => h.oneLine_message htokens) (fun h => absurd h hnot)
      (fun h => absurd h hnot) ?_
    intro pos hpos
    obtain ⟨i, hi, hindex, -⟩ := hblames.exists_index htokens hpos
    exact ⟨i, hi, hindex⟩

/-- Every error of the lexer, of a reader or of a builder that is raised for a text is worded in one
line, and if it has a position, its diagnostic has three rows.  The only errors that are not worded
in one line are those about a backslash in a string that stands at the end of a line: the end of the
line is a part of the message, and the diagnostic has four rows. -/
theorem messages_on_one_line (text : String) :
    (∀ e : LexError, Token.ofText text = .error e →
      Worded text e.IsFeedEscape e.message e.pos? (e.diagnostic text)) ∧
    (∀ e : ParseError, e.RaisedFor text →
      Worded text e.IsFeedEscape e.message e.pos? (e.diagnostic text)) :=
  ⟨fun _ => LexError.worded, fun _ => ParseError.RaisedFor.worded⟩

/-- A character that begins nothing is quoted, and so is a string on two lines that is found instead
of a number. -/
theorem messages_on_one_line_quoted :
    let stray := "a\n]"
    let unexpected : LexError := .unexpectedChar "]" ⟨2, 2, 1⟩
    let span := "(Span :lo \"a\nb\")"
    let notNumber : ParseError := .expected "number" "string 'a\\nb'" ⟨10, 1, 11⟩
    (Token.ofText stray = .error unexpected ∧
      Worded stray False unexpected.message unexpected.pos? (unexpected.diagnostic stray)) ∧
    (notNumber.RaisedFor span ∧
      Worded span False notNumber.message notNumber.pos? (notNumber.diagnostic span)) := by
  intro stray unexpected span notNumber
  have hstray : Token.ofText stray = .error unexpected := by decide +kernel
  have hspan : notNumber.RaisedFor span := by
    let t : Tree := .list
      [.leaf (.symbol "Span") ⟨1, 1, 2⟩, .leaf (.keyword "lo") ⟨6, 1, 7⟩,
        .leaf (.string "a\nb") ⟨10, 1, 11⟩] ⟨0, 1, 1⟩
    have hread : Tree.ofText {} span = .ok t := by decide +kernel
    have hbuild : (t.build .span).runFrom 0 = (.error (.invalid notNumber), 0) := by rfl
    exact .built (.first hread) (Int.le_refl 0) hbuild
  exact ⟨⟨hstray, (messages_on_one_line stray).1 unexpected hstray⟩,
    hspan, (messages_on_one_line span).2 notNumber hspan⟩

/-- A string has a backslash at the end of a line, and the message for it is on two lines.  The
diagnostic has four rows. -/
theorem message_on_two_lines :
    let text := "\"\\\n\""
    let e : LexError := .invalidEscape "\n" ⟨2, 1, 3⟩
    Token.ofText text = .error e ∧ Tree.ofText {} text = .error (.lexical e) ∧
      '\n' ∈ e.message.toList ∧ (rows (e.diagnostic text)).length = 4 := by
  decide +kernel

end CrateNotation
