import CrateNotation.Proofs.Text.Classes
import CrateNotation.Proofs.Text.LiteralGrammar
import CrateNotation.Token.Lexer
import Mathlib.Data.List.TakeWhile

/-!
# The lexical grammar

A text of the notation is made of spellings of tokens with gaps between them.  This module says
what may be a spelling, what may follow it and what may be a gap, without mentioning the lexer, and
proves that one step of the lexer splits off exactly that.

Two things in the grammar look past the piece that they are about.  A spelling must be as long as
it can be: `Stops` names the characters that may not follow it.  A comment runs to the end of its
line, so whether a piece of text is a gap depends on what comes after it.

## Main Definitions

* `Spells` — the spellings of tokens
* `Stops` — what may follow a spelling
* `IsGap` — blanks and comments
* `Scan.error?` — the error of a step that fails

## Main Statements

* `lexFrom_spelling`, `lexFrom_gap` — the lexer splits off what the grammar allows
* `spells_of_scan`, `isGap_of_scan` — and nothing else
-/

namespace CrateNotation

open Text

/-! ## Spellings -/

/-- What symbols are made of: a character that may begin one and others that may go on with one,
and not a minus sign before a digit. -/
inductive IsName : List Char → Prop where
  | mk {c : Char} {rest : List Char} (start : isSymbolStart c = true)
    (more : ∀ d ∈ rest, isSymbolChar d = true)
    (notNumber : c = '-' → ∀ d ∈ rest.head?, isAsciiDigit d = false) : IsName (c :: rest)

/-- The name that is a token of a kind of its own. -/
def nilName : List Char := ['n', 'i', 'l']

/-- The texts of symbols. -/
def IsSymbol (text : List Char) : Prop :=
  IsName text ∧ text ≠ nilName

/-- The names of keywords, which stand behind a colon. -/
def IsKeyword (name : List Char) : Prop :=
  name ≠ [] ∧ ∀ c ∈ name, isSymbolChar c = true

/-- One or more digits. -/
def IsDigits (text : List Char) : Prop :=
  text ≠ [] ∧ ∀ c ∈ text, isAsciiDigit c = true

/-- The texts of numbers: digits, and a minus sign in front of them or none. -/
def IsNumber (text : List Char) : Prop :=
  IsDigits text ∨ ∃ digits, text = '-' :: digits ∧ IsDigits digits

/-- Names and numbers are made of symbol characters. -/
theorem IsName.isSymbolChar_of_mem {text : List Char} (h : IsName text) :
    ∀ c ∈ text, isSymbolChar c = true := by
  cases h with
  | mk start more _ => exact List.forall_mem_cons.2 ⟨isSymbolChar_of_isSymbolStart start, more⟩

theorem IsNumber.isSymbolChar_of_mem {text : List Char} (h : IsNumber text) :
    ∀ c ∈ text, isSymbolChar c = true := by
  have hdigits : ∀ {digits : List Char}, IsDigits digits → ∀ c ∈ digits, isSymbolChar c = true :=
    fun hd c hc => isSymbolChar_of_isAsciiDigit (hd.2 c hc)
  rcases h with h | ⟨digits, rfl, h⟩
  · exact hdigits h
  · exact List.forall_mem_cons.2 ⟨by decide, hdigits h⟩

theorem IsName.ne_nil {text : List Char} (h : IsName text) : text ≠ [] := by
  cases h with
  | mk => exact List.cons_ne_nil _ _

theorem IsNumber.ne_nil {text : List Char} (h : IsNumber text) : text ≠ [] := by
  rcases h with h | ⟨digits, rfl, -⟩
  · exact h.1
  · exact List.cons_ne_nil _ _

/-- `Spells kind lexeme spelling` says that a token of a kind and with a lexeme may be written as
`spelling`. Nothing spells the end of input. -/
inductive Spells : TokenKind → List Char → List Char → Prop where
  | openParen : Spells .openParen ['('] ['(']
  | closeParen : Spells .closeParen [')'] [')']
  | keyword {name : List Char} (name_ok : IsKeyword name) : Spells .keyword name (':' :: name)
  | string {value body : List Char} (body_ok : LiteralBody value body) :
    Spells .string value ('"' :: body ++ ['"'])
  | number {text : List Char} (text_ok : IsNumber text) : Spells .number text text
  | symbol {text : List Char} (text_ok : IsSymbol text) : Spells .symbol text text
  | nil : Spells .nil nilName nilName

/-- Whether a spelling of a token of a given kind may stand before `next`, or at the end of a text:
a longer spelling must not begin there. -/
def Stops : TokenKind → Option Char → Prop
  | .symbol, next | .nil, next | .keyword, next => ∀ c ∈ next, isSymbolChar c = false
  | .number, next => ∀ c ∈ next, isAsciiDigit c = false
  | .openParen, _ | .closeParen, _ | .string, _ | .endOfInput, _ => True

/-- Before a character that no symbol goes on with, every spelling may end. -/
theorem stops_of_not_isSymbolChar {next : Option Char} (h : ∀ c ∈ next, isSymbolChar c = false)
    (kind : TokenKind) : Stops kind next := by
  cases kind with
  | symbol | nil | keyword => exact h
  | number =>
    intro c hc
    exact isAsciiDigit_of_not_isSymbolChar (h c hc)
  | openParen | closeParen | string | endOfInput => trivial

/-! ## Gaps -/

/-- `IsGap rest gap` says that `gap` may stand between tokens when `rest` follows it. -/
inductive IsGap (rest : List Char) : List Char → Prop where
  | none : IsGap rest []
  | blank {c : Char} {gap : List Char} (blank : isBlank c = true) (more : IsGap rest gap) :
    IsGap rest (c :: gap)
  /-- A comment holds no line feed, and ends only before one or where the text ends. -/
  | comment {body gap : List Char} (line : ∀ c ∈ body, c ≠ '\n')
    (stop : ∀ c ∈ (gap ++ rest).head?, c = '\n') (more : IsGap rest gap) :
    IsGap rest (';' :: body ++ gap)

/-- Two gaps make one. -/
theorem IsGap.append {rest gap more : List Char} (h : IsGap (more ++ rest) gap)
    (hmore : IsGap rest more) : IsGap rest (gap ++ more) := by
  induction h with
  | none => exact hmore
  | blank hb _ ih => exact .blank hb ih
  | comment line stop _ ih =>
    rw [List.append_assoc]
    refine .comment line ?_ ih
    rwa [List.append_assoc]

/-- Blanks are a gap before anything. -/
theorem isGap_of_blanks {rest gap : List Char} (h : ∀ c ∈ gap, isBlank c = true) :
    IsGap rest gap := by
  induction gap with
  | nil => exact .none
  | cons c gap ih =>
    have hmore := ih fun d hd => h d (List.mem_cons_of_mem c hd)
    exact .blank (h c List.mem_cons_self) hmore

/-! ## One step of the lexer -/

section Munch

variable {p : Char → Bool} {body rest : List Char}

theorem takeWhile_append_stop (hbody : ∀ d ∈ body, p d = true)
    (hrest : ∀ d ∈ rest.head?, p d = false) : (body ++ rest).takeWhile p = body := by
  rw [List.takeWhile_append_of_pos hbody]
  cases rest with
  | nil => simp
  | cons d rest => simp [hrest d rfl]

theorem dropWhile_append_stop (hbody : ∀ d ∈ body, p d = true)
    (hrest : ∀ d ∈ rest.head?, p d = false) : (body ++ rest).dropWhile p = rest := by
  rw [List.dropWhile_append_of_pos hbody]
  cases rest with
  | nil => rfl
  | cons d rest => simp [hrest d rfl]

/-- What is left of a text after its longest piece does not begin in the same class. -/
theorem stop_dropWhile (p : Char → Bool) (text : List Char) :
    ∀ c ∈ (text.dropWhile p).head?, p c = false := by
  intro c hc
  have h := List.head?_dropWhile_not p text
  rw [hc] at h
  exact h

end Munch

/-- A blank begins a gap of as many blanks as there are. -/
theorem scan_of_isBlank {c : Char} (h : isBlank c = true) (cs : List Char) :
    scan c cs = .gap (c :: cs.takeWhile isBlank) (cs.dropWhile isBlank) := by
  rw [scan, if_pos h]
  rfl

theorem scan_semicolon (cs : List Char) :
    scan ';' cs = .gap (';' :: cs.takeWhile (· != '\n')) (cs.dropWhile (· != '\n')) := rfl

theorem scan_openParen (cs : List Char) : scan '(' cs = .token .openParen ['('] ['('] cs := rfl

theorem scan_closeParen (cs : List Char) : scan ')' cs = .token .closeParen [')'] [')'] cs := rfl

theorem scan_colon (cs : List Char) : scan ':' cs = scanKeyword cs := rfl

theorem scan_quote (cs : List Char) : scan '"' cs = scanString cs := rfl

theorem scanNumber_eq (c : Char) (cs : List Char) :
    scanNumber c cs = .token .number (c :: cs.takeWhile isAsciiDigit)
      (c :: cs.takeWhile isAsciiDigit) (cs.dropWhile isAsciiDigit) := rfl

theorem scanSymbol_eq (c : Char) (cs : List Char) :
    scanSymbol c cs =
      .token (if c :: cs.takeWhile isSymbolChar = nilName then .nil else .symbol)
        (c :: cs.takeWhile isSymbolChar) (c :: cs.takeWhile isSymbolChar)
        (cs.dropWhile isSymbolChar) := rfl

/-- A symbol character has none of the rules before those for numbers and symbols. -/
theorem scan_of_isSymbolChar {c : Char} (h : isSymbolChar c = true) (cs : List Char) :
    scan c cs = if beginsNumber c cs then scanNumber c cs
      else if isSymbolStart c then scanSymbol c cs else .stray := by
  have hblank : ¬ isBlank c = true := by
    rw [isBlank_of_isSymbolChar h]
    exact Bool.false_ne_true
  have hmark := isMark_of_isSymbolChar h
  simp only [isMark, decide_eq_false_iff_not, List.mem_cons, List.not_mem_nil, or_false,
    not_or] at hmark
  obtain ⟨hsemicolon, hopen, hclose, hcolon, hquote⟩ := hmark
  rw [scan, if_neg hblank, if_neg hsemicolon, if_neg hopen, if_neg hclose, if_neg hcolon,
    if_neg hquote]

/-- Digits that nothing goes on with are a number. -/
theorem scan_number {c : Char} {body rest : List Char}
    (hbegins : beginsNumber c (body ++ rest) = true)
    (hbody : ∀ d ∈ body, isAsciiDigit d = true) (hrest : Stops .number rest.head?) :
    scan c (body ++ rest) = .token .number (c :: body) (c :: body) rest := by
  have hc : isSymbolChar c = true := by
    simp only [beginsNumber, Bool.or_eq_true, Bool.and_eq_true, beq_iff_eq] at hbegins
    rcases hbegins with hdigit | ⟨rfl, -⟩
    · exact isSymbolChar_of_isAsciiDigit hdigit
    · decide
  rw [scan_of_isSymbolChar hc, if_pos hbegins, scanNumber_eq, takeWhile_append_stop hbody hrest,
    dropWhile_append_stop hbody hrest]

/-- A name is never mistaken for a number. -/
theorem not_beginsNumber_of_isName {c : Char} {body rest : List Char} (h : IsName (c :: body))
    (hrest : ∀ d ∈ rest.head?, isSymbolChar d = false) :
    beginsNumber c (body ++ rest) = false := by
  cases h with
  | mk start _ notNumber =>
    have hdigit : isAsciiDigit c = false := by
      rw [Bool.eq_false_iff]
      intro hd
      rw [isSymbolStart_of_isAsciiDigit hd] at start
      exact Bool.false_ne_true start
    have hminus : c = '-' → ∀ d ∈ (body ++ rest).head?, isAsciiDigit d = false := by
      intro hc d hd
      cases body with
      | cons e body => exact notNumber hc d hd
      | nil =>
        -- The minus sign stands alone, and what follows it is no symbol character.
        exact isAsciiDigit_of_not_isSymbolChar (hrest d hd)
    simp only [beginsNumber, hdigit, Bool.false_or, Bool.and_eq_false_iff, beq_eq_false_iff_ne]
    by_cases hc : c = '-'
    · right
      rw [Option.any_eq_false]
      intro d hd
      simp [hminus hc d hd]
    · exact Or.inl hc

/-- A name that nothing goes on with is a symbol, or `nil`. -/
theorem scan_name {c : Char} {body rest : List Char} (h : IsName (c :: body))
    (hrest : ∀ d ∈ rest.head?, isSymbolChar d = false) :
    scan c (body ++ rest) =
      .token (if c :: body = nilName then .nil else .symbol) (c :: body) (c :: body) rest := by
  have hnumber := not_beginsNumber_of_isName h hrest
  cases h with
  | mk start more notNumber =>
    rw [scan_of_isSymbolChar (isSymbolChar_of_isSymbolStart start), hnumber, if_neg (by simp),
      if_pos start, scanSymbol_eq, takeWhile_append_stop more hrest,
      dropWhile_append_stop more hrest]

/-- A spelling that nothing goes on with is split off as its token. -/
theorem scan_spelling {kind : TokenKind} {lexeme spelling rest : List Char}
    (h : Spells kind lexeme spelling) (hrest : Stops kind rest.head?) :
    ∃ c cs, spelling = c :: cs ∧ scan c (cs ++ rest) = .token kind lexeme spelling rest := by
  cases h with
  | openParen => exact ⟨'(', [], rfl, scan_openParen rest⟩
  | closeParen => exact ⟨')', [], rfl, scan_closeParen rest⟩
  | keyword name_ok =>
    obtain ⟨hne, hname⟩ := name_ok
    refine ⟨':', lexeme, rfl, ?_⟩
    rw [scan_colon, scanKeyword, takeWhile_append_stop hname hrest,
      dropWhile_append_stop hname hrest]
    cases lexeme with
    | nil => exact absurd rfl hne
    | cons c name => rfl
  | @string _ body body_ok =>
    refine ⟨'"', body ++ ['"'], rfl, ?_⟩
    rw [scan_quote, scanString, List.append_assoc, List.singleton_append,
      readLiteral_append body_ok rest]
    rfl
  | number text_ok =>
    -- The first character is a digit, or a minus sign that a digit follows.
    rcases text_ok with ⟨hne, hdigits⟩ | ⟨digits, rfl, hne, hdigits⟩
    · cases lexeme with
      | nil => exact absurd rfl hne
      | cons c body =>
        obtain ⟨hc, hbody⟩ := List.forall_mem_cons.1 hdigits
        have hbegins : beginsNumber c (body ++ rest) = true := by
          simp [beginsNumber, hc]
        exact ⟨c, body, rfl, scan_number hbegins hbody hrest⟩
    · have hbegins : beginsNumber '-' (digits ++ rest) = true := by
        cases digits with
        | nil => exact absurd rfl hne
        | cons d digits => simp [beginsNumber, hdigits d List.mem_cons_self]
      exact ⟨'-', digits, rfl, scan_number hbegins hdigits hrest⟩
  | symbol text_ok =>
    obtain ⟨hname, hnil⟩ := text_ok
    cases lexeme with
    | nil => nomatch hname
    | cons c body =>
      have hscan := scan_name hname hrest
      rw [if_neg hnil] at hscan
      exact ⟨c, body, rfl, hscan⟩
  | nil =>
    have hmore : ∀ d ∈ ['i', 'l'], isSymbolChar d = true := List.all_eq_true.1 (by decide)
    have hname : IsName nilName := .mk (by decide) hmore fun h => absurd h (by decide)
    have hscan := scan_name hname hrest
    exact ⟨'n', ['i', 'l'], rfl, hscan⟩

theorem spells_of_scanKeyword {cs lexeme spelling rest : List Char} {kind : TokenKind}
    (h : scanKeyword cs = .token kind lexeme spelling rest) :
    Spells kind lexeme spelling ∧ Stops kind rest.head? := by
  unfold scanKeyword at h
  split at h
  · simp at h
  next name hne =>
    obtain ⟨rfl, rfl, rfl, rfl⟩ := by simpa using h
    exact ⟨.keyword ⟨hne, fun c hc => List.mem_takeWhile_imp hc⟩, stop_dropWhile _ _⟩

theorem spells_of_scanString {cs lexeme spelling rest : List Char} {kind : TokenKind}
    (h : scanString cs = .token kind lexeme spelling rest) :
    Spells kind lexeme spelling ∧ Stops kind rest.head? := by
  unfold scanString at h
  split at h
  next value inner rest' hread =>
    obtain ⟨rfl, rfl, rfl, rfl⟩ := by simpa using h
    obtain ⟨body, rfl, hbody⟩ := literalBody_of_readLiteral hread
    exact ⟨.string hbody, trivial⟩
  · simp at h
  · simp at h

theorem spells_of_scanNumber {c : Char} {cs lexeme spelling rest : List Char} {kind : TokenKind}
    (hnumber : beginsNumber c cs = true) (h : scanNumber c cs = .token kind lexeme spelling rest) :
    Spells kind lexeme spelling ∧ Stops kind rest.head? := by
  rw [scanNumber_eq] at h
  obtain ⟨rfl, rfl, rfl, rfl⟩ := by simpa using h
  refine ⟨.number ?_, stop_dropWhile _ _⟩
  have hbody : ∀ d ∈ cs.takeWhile isAsciiDigit, isAsciiDigit d = true :=
    fun d hd => List.mem_takeWhile_imp hd
  simp only [beginsNumber, Bool.or_eq_true, Bool.and_eq_true, beq_iff_eq,
    Option.any_eq_true] at hnumber
  rcases hnumber with hc | ⟨rfl, d, hd, hdigit⟩
  · refine Or.inl ⟨List.cons_ne_nil c _, ?_⟩
    intro d hd
    rcases List.mem_cons.1 hd with rfl | hd
    · exact hc
    · exact hbody d hd
  · refine Or.inr ⟨_, rfl, ?_, hbody⟩
    cases cs with
    | nil => simp at hd
    | cons e cs =>
      obtain rfl : e = d := by simpa using hd
      simp [hdigit]

theorem spells_of_scanSymbol {c : Char} {cs lexeme spelling rest : List Char} {kind : TokenKind}
    (hnumber : ¬ beginsNumber c cs = true) (hstart : isSymbolStart c = true)
    (h : scanSymbol c cs = .token kind lexeme spelling rest) :
    Spells kind lexeme spelling ∧ Stops kind rest.head? := by
  have hname : IsName (c :: cs.takeWhile isSymbolChar) := by
    refine .mk hstart (fun d hd => List.mem_takeWhile_imp hd) ?_
    -- A minus sign is not followed by a digit, since that would have been a number.
    intro hc d hd
    cases cs with
    | nil => simp at hd
    | cons e cs =>
      have hde : e = d := by
        rw [List.takeWhile_cons] at hd
        split at hd <;> simp_all
      simp only [beginsNumber, hc, Bool.not_eq_true, Bool.or_eq_false_iff] at hnumber
      simpa [hde] using hnumber.2
  rw [scanSymbol_eq, Scan.token.injEq] at h
  obtain ⟨rfl, rfl, rfl, rfl⟩ := h
  by_cases hnil : c :: cs.takeWhile isSymbolChar = nilName
  · rw [if_pos hnil, hnil]
    exact ⟨.nil, stop_dropWhile _ _⟩
  · rw [if_neg hnil]
    exact ⟨.symbol ⟨hname, hnil⟩, stop_dropWhile _ _⟩

/-- What is split off as a token is a spelling of it, and nothing goes on with it. -/
theorem spells_of_scan {c : Char} {cs lexeme spelling rest : List Char} {kind : TokenKind}
    (h : scan c cs = .token kind lexeme spelling rest) :
    Spells kind lexeme spelling ∧ Stops kind rest.head? := by
  -- The rules are tried in their order. The first two split off gaps, and no rule is left in the
  -- end.
  unfold scan at h
  split at h
  · simp at h
  split at h
  · simp at h
  split at h
  next hc =>
    obtain ⟨rfl, rfl, rfl, rfl⟩ := by simpa using h
    exact ⟨hc ▸ .openParen, trivial⟩
  split at h
  next hc =>
    obtain ⟨rfl, rfl, rfl, rfl⟩ := by simpa using h
    exact ⟨hc ▸ .closeParen, trivial⟩
  split at h
  next => exact spells_of_scanKeyword h
  split at h
  next => exact spells_of_scanString h
  split at h
  next hnumber => exact spells_of_scanNumber hnumber h
  split at h
  next hnumber hstart => exact spells_of_scanSymbol hnumber hstart h
  · simp at h

/-- What is split off without a token is a gap. -/
theorem isGap_of_scan {c : Char} {cs spelling rest : List Char}
    (h : scan c cs = .gap spelling rest) : IsGap rest spelling := by
  by_cases hblank : isBlank c = true
  · rw [scan_of_isBlank hblank] at h
    obtain ⟨rfl, rfl⟩ := by simpa using h
    exact .blank hblank (isGap_of_blanks fun d hd => List.mem_takeWhile_imp hd)
  by_cases hc : c = ';'
  · subst hc
    rw [scan_semicolon] at h
    obtain ⟨rfl, rfl⟩ := by simpa using h
    have hline : ∀ d ∈ cs.takeWhile (· != '\n'), d ≠ '\n' :=
      fun d hd => by simpa using List.mem_takeWhile_imp hd
    have hstop : ∀ d ∈ ([] ++ cs.dropWhile (· != '\n')).head?, d = '\n' :=
      fun d hd => by simpa using stop_dropWhile (· != '\n') cs d hd
    have hcomment := IsGap.comment hline hstop .none
    rwa [List.append_nil] at hcomment
  · -- No other rule splits off a gap.
    rw [scan, if_neg hblank, if_neg hc] at h
    unfold scanKeyword scanString scanNumber scanSymbol at h
    grind

/-! ## The lexer -/

/-- What a computation is mapped to comes of what it computes. -/
theorem exists_of_map_eq_ok {ε α β : Type} {f : α → β} {x : Except ε α} {b : β}
    (h : f <$> x = .ok b) : ∃ a, x = .ok a ∧ f a = b := by
  cases x with
  | error e => cases h
  | ok a => exact ⟨a, rfl, Except.ok.inj h⟩

theorem lexFrom_of_scan_gap {pos : Position} {c : Char} {cs spelling rest : List Char}
    (h : scan c cs = .gap spelling rest) :
    lexFrom pos (c :: cs) = lexFrom (pos.after spelling) rest := by
  rw [lexFrom]
  split <;> simp_all

theorem lexFrom_of_scan_token {pos : Position} {c : Char} {cs lexeme spelling rest : List Char}
    {kind : TokenKind} (h : scan c cs = .token kind lexeme spelling rest) :
    lexFrom pos (c :: cs) =
      (⟨kind, String.ofList lexeme, pos⟩ :: ·) <$> lexFrom (pos.after spelling) rest := by
  rw [lexFrom]
  split <;> simp_all

/-- The error of what a text begins with, if it begins neither with a gap nor with a token. The text
begins with `c` at `pos`. -/
def Scan.error? (pos : Position) (c : Char) : Scan → Option LexError
  | gap .. | token .. => none
  | stray => some (.unexpectedChar (String.singleton c) pos)
  | badEscape before bad => some (.invalidEscape (String.singleton bad) (pos.after before))
  | unterminated => some (.unterminatedString pos)

/-- A step that fails ends the lexing of a text. -/
theorem lexFrom_of_scan_error {pos : Position} {c : Char} {cs : List Char} {e : LexError}
    (h : (scan c cs).error? pos c = some e) : lexFrom pos (c :: cs) = .error e := by
  rw [lexFrom]
  split <;> simp_all [Scan.error?]

/-- A spelling that nothing goes on with makes its token. -/
theorem lexFrom_spelling {kind : TokenKind} {lexeme spelling rest : List Char} (pos : Position)
    (h : Spells kind lexeme spelling) (hrest : Stops kind rest.head?) :
    lexFrom pos (spelling ++ rest) =
      (⟨kind, String.ofList lexeme, pos⟩ :: ·) <$> lexFrom (pos.after spelling) rest := by
  obtain ⟨c, cs, rfl, hscan⟩ := scan_spelling h hrest
  exact lexFrom_of_scan_token hscan

/-- A single blank is passed over, whatever follows it. -/
theorem lexFrom_blank {c : Char} (pos : Position) (h : isBlank c = true) (cs : List Char) :
    lexFrom pos (c :: cs) = lexFrom (pos.next c) cs := by
  -- The lexer takes all blanks at once. If there are more, it would have taken the others alone.
  rw [lexFrom_of_scan_gap (scan_of_isBlank h cs), Position.after_cons]
  cases cs with
  | nil => rfl
  | cons d cs =>
    by_cases hd : isBlank d = true
    · rw [List.takeWhile_cons_of_pos hd, List.dropWhile_cons_of_pos hd,
        lexFrom_of_scan_gap (scan_of_isBlank hd cs)]
    · rw [List.takeWhile_cons_of_neg hd, List.dropWhile_cons_of_neg hd, Position.after_nil]

/-- A gap is passed over. -/
theorem lexFrom_gap {rest gap : List Char} (pos : Position) (h : IsGap rest gap) :
    lexFrom pos (gap ++ rest) = lexFrom (pos.after gap) rest := by
  induction h generalizing pos with
  | none => rfl
  | blank hblank _ ih =>
    rw [List.cons_append, lexFrom_blank pos hblank, ih, Position.after_cons]
  | @comment body gap line stop _ ih =>
    -- The comment is as long as the grammar lets it be, so the lexer takes no more and no less.
    have hbody : ∀ d ∈ body, (d != '\n') = true := fun d hd => by simpa using line d hd
    have hstop : ∀ d ∈ (gap ++ rest).head?, (d != '\n') = false :=
      fun d hd => by simpa using stop d hd
    have hscan : scan ';' (body ++ (gap ++ rest)) = .gap (';' :: body) (gap ++ rest) := by
      rw [scan_semicolon, takeWhile_append_stop hbody hstop, dropWhile_append_stop hbody hstop]
    rw [List.append_assoc, List.cons_append, lexFrom_of_scan_gap hscan, ih, Position.after_append]

end CrateNotation
