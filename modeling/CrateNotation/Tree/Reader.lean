import CrateNotation.Error
import CrateNotation.Options
import CrateNotation.Token.Lexer
import CrateNotation.Tree

/-!
# From tokens to trees

Reading goes through the tokens once and keeps a stack of the lists that are open.  A leaf is put
into the innermost open list, an opening parenthesis opens a further one, and a closing parenthesis
takes the innermost list off the stack and puts it into the one around it.  When there is none
around it, the tree is read.

Every reading returns two things: the tree or an error, and the tokens that are left.  After an
error these begin with the token that the error is about, so that a caller may look at it and
decide how to go on.

A row of tokens closes with the end of input.  The row without tokens does not, and is read as if
only the end of input stood there, so that reading is defined for every row.

## Main Definitions

* `Tree.readOn` — reading inside open lists
* `Tree.read`, `Tree.readList`, `Tree.readAll`, `Tree.readFirst` — one tree, a list, all trees, the
  first tree of a text
* `Tree.ofText`, `Tree.allOfText` — reading a text

## Main Statements

* `Tree.length_lt_of_read` — a tree takes at least one token
* `Tree.closed_read` and its companions — what is left is closed if the whole row was
-/

namespace CrateNotation

/-- What a token means to a reader of trees. -/
inductive Token.Role where
  | opens
  | closes
  | ends
  | leaf (l : Leaf)

/-- What a token means to a reader of trees. -/
def Token.role (t : Token) : Token.Role :=
  match t.kind with
  | .openParen => .opens
  | .closeParen => .closes
  | .endOfInput => .ends
  | .symbol => .leaf (.symbol t.lexeme)
  | .keyword => .leaf (.keyword t.lexeme)
  | .string => .leaf (.string t.lexeme)
  | .number => .leaf (.number t.lexeme)
  | .nil => .leaf .nil

theorem Token.role_eq_ends_iff {t : Token} : t.role = .ends ↔ t.isEnd = true := by
  unfold role isEnd
  split <;> simp_all

/-- Whether there is nothing but the end of input left. -/
def atEnd : List Token → Bool
  | [] => true
  | t :: _ => t.isEnd

/-- A row of tokens that closes with the end of input. -/
def Closed (ts : List Token) : Prop :=
  ∃ t ∈ ts.getLast?, t.isEnd = true

instance (ts : List Token) : Decidable (Closed ts) :=
  match h : ts.getLast? with
  | none => isFalse (by simp [Closed, h])
  | some t => decidable_of_iff (t.isEnd = true) (by simp [Closed, h])

/-- Behind a token that is not the end of input the row goes on. -/
theorem Closed.tail {t : Token} {ts : List Token} (h : Closed (t :: ts)) (ht : t.isEnd = false) :
    Closed ts := by
  cases ts with
  | nil => simp [Closed, ht] at h
  | cons t' ts => simpa [Closed] using h

theorem Closed.ne_nil {ts : List Token} (h : Closed ts) : ts ≠ [] := by
  rintro rfl
  simp [Closed] at h

namespace Tree

/-- A list that has been opened and not been closed yet. -/
structure OpenList where
  /-- Where its opening parenthesis is. -/
  pos : Position
  /-- Its elements so far, the last one first. -/
  elements : List Tree

/-- The list with one more element. -/
def OpenList.push (l : OpenList) (t : Tree) : OpenList :=
  { l with elements := t :: l.elements }

/-- The list that is complete with the elements so far. -/
def OpenList.close (l : OpenList) : Tree :=
  list l.elements.reverse l.pos

/-- The error of a text that ends inside the lists `opened`, the innermost first. -/
def unfinished : List OpenList → ParseError
  | [] => .emptyInput
  | l :: _ => .unterminatedList l.pos

/-- What reading one thing comes to, and the tokens that are left. -/
abbrev Outcome (α : Type) := Except ParseError α × List Token

/-- Reads on inside the lists `opened`, the innermost first, up to the end of the tree that they
belong to. There are `depth` lists around that tree, and no token may have more than `limit`
around it. -/
def readOn (limit depth : Int) : List OpenList → List Token → Outcome Tree
  | opened, [] => (.error (unfinished opened), [])
  | opened, t :: ts =>
    match t.role with
    | .opens =>
      if depth + opened.length + 1 > limit then (.error (.nestingTooDeep limit t.pos), t :: ts)
      else readOn limit depth (⟨t.pos, []⟩ :: opened) ts
    | .ends => (.error (unfinished opened), t :: ts)
    | .closes =>
      match opened with
      | [] => (.error (.unexpectedClose t.pos), t :: ts)
      | [l] => (.ok l.close, ts)
      | l :: around :: opened => readOn limit depth (around.push l.close :: opened) ts
    | .leaf l =>
      match opened with
      | [] => (.ok (.leaf l t.pos), ts)
      | around :: opened => readOn limit depth (around.push (.leaf l t.pos) :: opened) ts

/-- Reads one tree that has `depth` lists around it. -/
def read (limit depth : Int) (ts : List Token) : Outcome Tree :=
  readOn limit depth [] ts

/-- Reads a list that has `depth` lists around its elements. The first token is taken for its
opening parenthesis, whatever it is. -/
def readList (limit depth : Int) : List Token → Outcome Tree
  | [] => (.error .emptyInput, [])
  | t :: ts =>
    if depth > limit then (.error (.nestingTooDeep limit t.pos), t :: ts)
    else readOn limit (depth - 1) [⟨t.pos, []⟩] (if t.isEnd then t :: ts else ts)

theorem length_lt_of_readOn {limit depth : Int} {opened : List OpenList} {ts rest : List Token}
    {tree : Tree} (h : readOn limit depth opened ts = (.ok tree, rest)) :
    rest.length < ts.length := by
  fun_induction readOn limit depth opened ts <;> grind

/-- A tree takes at least one token. -/
theorem length_lt_of_read {limit depth : Int} {ts rest : List Token} {tree : Tree}
    (h : read limit depth ts = (.ok tree, rest)) : rest.length < ts.length :=
  length_lt_of_readOn h

/-- Reads every tree up to the end of input. -/
def readAll (limit : Int) (ts : List Token) : Outcome (List Tree) :=
  if atEnd ts then (.ok [], ts)
  else
    match h : read limit 0 ts with
    | (.error e, rest) => (.error e, rest)
    | (.ok tree, rest) =>
      have := length_lt_of_read h
      let (trees, rest) := readAll limit rest
      ((tree :: ·) <$> trees, rest)
termination_by ts.length
decreasing_by assumption

/-- Reads the first tree of a text, and refuses a second one if it must be the last. -/
def readFirst (options : ReadOptions) (ts : List Token) : Outcome Tree :=
  if atEnd ts then (.error .emptyInput, ts)
  else
    match read options.maxDepth 0 ts with
    | (.ok tree, t :: rest) =>
      if options.requireEnd && !t.isEnd then (.error (.unexpectedToken t.lexeme t.pos), t :: rest)
      else (.ok tree, t :: rest)
    | outcome => outcome

theorem closed_readOn {limit depth : Int} {opened : List OpenList} {ts : List Token}
    (h : Closed ts) : Closed (readOn limit depth opened ts).2 := by
  fun_induction readOn limit depth opened ts with
  | case1 => exact h
  | case2 => exact h
  | case3 opened t ts ht _ ih =>
    exact ih (h.tail (by simpa [ht] using Token.role_eq_ends_iff (t := t)))
  | case4 => exact h
  | case5 => exact h
  | case6 t ts ht l => exact h.tail (by simpa [ht] using Token.role_eq_ends_iff (t := t))
  | case7 t ts ht l around opened ih =>
    exact ih (h.tail (by simpa [ht] using Token.role_eq_ends_iff (t := t)))
  | case8 t ts l ht => exact h.tail (by simpa [ht] using Token.role_eq_ends_iff (t := t))
  | case9 t ts l ht around opened ih =>
    exact ih (h.tail (by simpa [ht] using Token.role_eq_ends_iff (t := t)))

/-- Reading a tree leaves a closed row closed. -/
theorem closed_read (limit depth : Int) {ts : List Token} (h : Closed ts) :
    Closed (read limit depth ts).2 :=
  closed_readOn h

theorem closed_readList (limit depth : Int) {ts : List Token} (h : Closed ts) :
    Closed (readList limit depth ts).2 := by
  unfold readList
  split
  · exact h
  next t ts =>
    split
    · exact h
    · apply closed_readOn
      split
      · exact h
      next ht => exact h.tail (by simpa using ht)

theorem closed_readAll (limit : Int) {ts : List Token} (h : Closed ts) :
    Closed (readAll limit ts).2 := by
  fun_induction readAll limit ts with
  | case1 => exact h
  | case2 ts _ e rest he => simpa [he] using closed_read limit 0 h
  | case3 ts _ tree rest he _ trees rest' hr ih =>
    simpa [hr] using ih (by simpa [he] using closed_read limit 0 h)

theorem closed_readFirst (options : ReadOptions) {ts : List Token} (h : Closed ts) :
    Closed (readFirst options ts).2 := by
  unfold readFirst
  split
  · exact h
  split
  next tree t rest he =>
    have : Closed (t :: rest) := by simpa [he] using closed_read options.maxDepth 0 h
    split <;> exact this
  · exact closed_read options.maxDepth 0 h

/-- The first tree of a text. -/
def ofText (options : ReadOptions) (text : String) : Except ParseError Tree :=
  match Token.ofText text with
  | .error e => .error (.lexical e)
  | .ok tokens => (readFirst options tokens).1

/-- Every tree of a text. -/
def allOfText (options : ReadOptions) (text : String) : Except ParseError (List Tree) :=
  match Token.ofText text with
  | .error e => .error (.lexical e)
  | .ok tokens => (readAll options.maxDepth tokens).1

section OfText

variable {options : ReadOptions} {text : String}

theorem ofText_of_tokens {tokens : List Token} (h : Token.ofText text = .ok tokens) :
    ofText options text = (readFirst options tokens).1 := by
  rw [ofText, h]

theorem allOfText_of_tokens {tokens : List Token} (h : Token.ofText text = .ok tokens) :
    allOfText options text = (readAll options.maxDepth tokens).1 := by
  rw [allOfText, h]

/-- Where the lexer fails, no tree is read. -/
theorem ofText_of_lexError {e : LexError} (h : Token.ofText text = .error e) :
    ofText options text = .error (.lexical e) := by
  rw [ofText, h]

theorem allOfText_of_lexError {e : LexError} (h : Token.ofText text = .error e) :
    allOfText options text = .error (.lexical e) := by
  rw [allOfText, h]

end OfText

end Tree

end CrateNotation
