import CrateNotation.Error
import CrateNotation.Text.Blank
import CrateNotation.Text.Literal
import CrateNotation.Token

/-!
# From a text to its tokens

One step, `scan`, looks at a text that is not empty and splits off what it begins with: a gap
(a run of blanks, or a comment), a token, or a fault.  It knows nothing of positions.  `lexFrom`
takes step after step, walking a position over the spelling of each piece.

The rules are tried in the order in which `scan` lists them.  Two of them overlap: a minus sign
before a digit begins a number and not a symbol.  Every rule takes as many characters as it can.

`Scan.IsSplit` and `scan_isSplit` say that a step loses nothing and moves on, which is why the
lexer ends.

## Main Definitions

* `Scan` — what a text begins with
* `scan` — one step
* `lexFrom` — all steps, from a given position
* `Token.ofText` — the tokens of a text
-/

namespace CrateNotation

open Text

/-- What a text begins with. -/
inductive Scan where
  /-- Blanks or a comment, spelled `spelling`, before `rest`. -/
  | gap (spelling rest : List Char)
  /-- A token, spelled `spelling`, before `rest`. -/
  | token (kind : TokenKind) (lexeme spelling rest : List Char)
  /-- A character that begins nothing. -/
  | stray
  /-- A string in which `c` follows `before` and makes no escape. -/
  | badEscape (before : List Char) (c : Char)
  /-- A string that the text ends in. -/
  | unterminated

/-- The longest piece at the beginning of `c :: cs` that consists of `c` and of characters that
`p` holds of, and what is left. -/
def munch (p : Char → Bool) (c : Char) (cs : List Char) : List Char × List Char :=
  (c :: cs.takeWhile p, cs.dropWhile p)

/-- The keyword that `cs` begins with, just past its colon. -/
def scanKeyword (cs : List Char) : Scan :=
  match cs.takeWhile isSymbolChar with
  | [] => .stray
  | name => .token .keyword name (':' :: name) (cs.dropWhile isSymbolChar)

/-- The string whose text and closing mark `cs` begins with, just past its opening mark. -/
def scanString (cs : List Char) : Scan :=
  match readLiteral cs with
  | .closed value spelling rest => .token .string value ('"' :: spelling) rest
  | .badEscape before c => .badEscape ('"' :: before) c
  | .unterminated => .unterminated

/-- Whether `c :: cs` begins with a number. -/
def beginsNumber (c : Char) (cs : List Char) : Bool :=
  isAsciiDigit c || c == '-' && cs.head?.any isAsciiDigit

/-- The number that `c :: cs` begins with. -/
def scanNumber (c : Char) (cs : List Char) : Scan :=
  let (spelling, rest) := munch isAsciiDigit c cs
  .token .number spelling spelling rest

/-- The symbol that `c :: cs` begins with; one of them is set apart as `nil`. -/
def scanSymbol (c : Char) (cs : List Char) : Scan :=
  let (spelling, rest) := munch isSymbolChar c cs
  .token (if spelling = ['n', 'i', 'l'] then .nil else .symbol) spelling spelling rest

/-- Splits off what the text `c :: cs` begins with. -/
def scan (c : Char) (cs : List Char) : Scan :=
  if isBlank c then
    let (spelling, rest) := munch isBlank c cs
    .gap spelling rest
  else if c = ';' then
    let (spelling, rest) := munch (· != '\n') c cs
    .gap spelling rest
  else if c = '(' then .token .openParen [c] [c] cs
  else if c = ')' then .token .closeParen [c] [c] cs
  else if c = ':' then scanKeyword cs
  else if c = '"' then scanString cs
  else if beginsNumber c cs then scanNumber c cs
  else if isSymbolStart c then scanSymbol c cs
  else .stray

/-- A piece that was split off `text` is not empty, and what is left follows it. -/
def Scan.IsSplit (text : List Char) : Scan → Prop
  | gap spelling rest | token _ _ spelling rest => spelling ++ rest = text ∧ spelling ≠ []
  | stray | badEscape _ _ | unterminated => True

theorem munch_append (p : Char → Bool) (c : Char) (cs : List Char) :
    (munch p c cs).1 ++ (munch p c cs).2 = c :: cs := by
  simp [munch]

theorem munch_ne_nil (p : Char → Bool) (c : Char) (cs : List Char) :
    (munch p c cs).1 ≠ [] := by
  simp [munch]

theorem scanKeyword_isSplit (cs : List Char) : (scanKeyword cs).IsSplit (':' :: cs) := by
  unfold scanKeyword
  split
  · trivial
  next name _ => exact ⟨by simp, by simp⟩

theorem scanString_isSplit (cs : List Char) : (scanString cs).IsSplit ('"' :: cs) := by
  unfold scanString
  split
  next h => exact ⟨by simp [spelling_append_rest h], by simp⟩
  · trivial
  · trivial

/-- A step loses no character and takes at least one. -/
theorem scan_isSplit (c : Char) (cs : List Char) : (scan c cs).IsSplit (c :: cs) := by
  unfold scan
  split
  · exact ⟨munch_append .., munch_ne_nil _ _ _⟩
  split
  · exact ⟨munch_append .., munch_ne_nil _ _ _⟩
  split
  · exact ⟨rfl, by simp⟩
  split
  · exact ⟨rfl, by simp⟩
  split
  next h => exact h ▸ scanKeyword_isSplit cs
  split
  next h => exact h ▸ scanString_isSplit cs
  split
  · exact ⟨munch_append .., munch_ne_nil _ _ _⟩
  split
  · exact ⟨munch_append .., munch_ne_nil _ _ _⟩
  · trivial

theorem Scan.IsSplit.length_lt {text spelling rest : List Char}
    (h : spelling ++ rest = text ∧ spelling ≠ []) : rest.length < text.length := by
  obtain ⟨rfl, hne⟩ := h
  have := List.length_pos_iff.2 hne
  simp only [List.length_append]
  omega

/-- The tokens of a text that begins at `pos`, with the end of input after the last. -/
def lexFrom (pos : Position) : List Char → Except LexError (List Token)
  | [] => .ok [⟨.endOfInput, "", pos⟩]
  | c :: cs =>
    match h : scan c cs with
    | .gap spelling rest =>
      have := Scan.IsSplit.length_lt (h ▸ scan_isSplit c cs : (Scan.gap spelling rest).IsSplit _)
      lexFrom (pos.after spelling) rest
    | .token kind lexeme spelling rest =>
      have := Scan.IsSplit.length_lt
        (h ▸ scan_isSplit c cs : (Scan.token kind lexeme spelling rest).IsSplit _)
      (⟨kind, String.ofList lexeme, pos⟩ :: ·) <$> lexFrom (pos.after spelling) rest
    | .stray => .error (.unexpectedChar (String.singleton c) pos)
    | .badEscape before bad =>
      .error (.invalidEscape (String.singleton bad) (pos.after before))
    | .unterminated => .error (.unterminatedString pos)
termination_by text => text.length
decreasing_by all_goals assumption

/-- The tokens of a text. -/
def Token.ofText (text : String) : Except LexError (List Token) :=
  lexFrom .start text.toList

end CrateNotation
