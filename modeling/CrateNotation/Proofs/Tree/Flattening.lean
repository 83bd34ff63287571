import CrateNotation.Tree.Reader
import Mathlib.Tactic.Common

/-!
# Trees and the tokens they are read from

A tree is read from a row of tokens and keeps most of it: what its leaves say and where they are,
and where its lists are opened.  What it keeps of a token is the token's *trace*.  This module
flattens trees back into traces and proves that reading is the inverse of flattening: a reader
accepts a row of tokens exactly if the row leaves the traces of a tree that nests within the limit,
and then the tree is what it makes of the row.

One direction follows the tree, the other follows the row.  Both look at the lists that are open
in between, whose traces are those of the tokens that have been read so far.

## Main Definitions

* `Trace`, `Token.trace` — what a tree keeps of a token
* `Tree.traces` — a tree flattened
* `Tree.nesting` — how many lists lie inside each other
* `Tree.deliver` — a tree that has been read, put where it belongs

## Main Statements

* `Tree.readOn_of_traces` — what leaves the traces of a tree is read as that tree
* `Tree.readsTo_of_readOn` — and nothing else is
* `Tree.readAll_append`, `Tree.traces_of_readAll` — the same for a row of trees
* `Tree.row_induct` — induction on the trees of a row
-/

namespace CrateNotation

/-! ## Traces -/

/-- What a tree keeps of a token. -/
structure Trace where
  kind : TokenKind
  lexeme : String
  /-- Where the token begins. A tree does not say where its lists are closed. -/
  pos? : Option Position
deriving DecidableEq

/-- The lexeme that all tokens of a kind have, if there is only one. -/
def TokenKind.fixed? : TokenKind → Option String
  | openParen => some "("
  | closeParen => some ")"
  | nil => some "nil"
  | endOfInput => some ""
  | symbol | keyword | string | number => none

namespace Trace

/-- What a list keeps of its opening parenthesis. -/
def opening (pos : Position) : Trace :=
  ⟨.openParen, "(", some pos⟩

/-- What a list keeps of its closing parenthesis. -/
def closing : Trace :=
  ⟨.closeParen, ")", none⟩

/-- What a leaf keeps of its token. -/
def leaf : Leaf → Position → Trace
  | .symbol text, pos => ⟨.symbol, text, some pos⟩
  | .keyword name, pos => ⟨.keyword, name, some pos⟩
  | .string text, pos => ⟨.string, text, some pos⟩
  | .number text, pos => ⟨.number, text, some pos⟩
  | .nil, pos => ⟨.nil, "nil", some pos⟩

end Trace

namespace Token

variable {t : Token} {pos : Position}

theorem kind_of_opens (h : t.role = .opens) : t.kind = .openParen := by
  unfold role at h
  split at h <;> simp_all

theorem kind_of_closes (h : t.role = .closes) : t.kind = .closeParen := by
  unfold role at h
  split at h <;> simp_all

/-- What a tree keeps of a token. -/
def trace (t : Token) : Trace where
  kind := t.kind
  lexeme := t.kind.fixed?.getD t.lexeme
  pos? := if t.kind = .closeParen then none else some t.pos

/-- A token whose lexeme is the only one that its kind has, if there is only one. -/
def WellSpelled (t : Token) : Prop :=
  ∀ text ∈ t.kind.fixed?, t.lexeme = text

/-- The lexeme of a well-spelled token is the one that is kept. -/
theorem lexeme_trace_eq_iff : t.trace.lexeme = t.lexeme ↔ t.WellSpelled := by
  show t.kind.fixed?.getD t.lexeme = t.lexeme ↔ ∀ text ∈ t.kind.fixed?, t.lexeme = text
  cases t.kind.fixed? with
  | none => simp
  | some text => simp [eq_comm]

instance (t : Token) : Decidable t.WellSpelled :=
  decidable_of_iff (t.trace.lexeme = t.lexeme) lexeme_trace_eq_iff

/-- A list keeps the tokens that open it. -/
theorem trace_eq_opening_iff : t.trace = .opening pos ↔ t.role = .opens ∧ t.pos = pos := by
  obtain ⟨kind, lexeme, p⟩ := t
  cases kind <;> simp [trace, role, Trace.opening, TokenKind.fixed?]

/-- A list keeps the tokens that close it. -/
theorem trace_eq_closing_iff : t.trace = .closing ↔ t.role = .closes := by
  obtain ⟨kind, lexeme, p⟩ := t
  cases kind <;> simp [trace, role, Trace.closing, TokenKind.fixed?]

/-- A leaf keeps the token that it is. -/
theorem trace_eq_leaf_iff {l : Leaf} :
    t.trace = .leaf l pos ↔ t.role = .leaf l ∧ t.pos = pos := by
  obtain ⟨kind, lexeme, p⟩ := t
  cases kind <;> cases l <;> simp [trace, role, Trace.leaf, TokenKind.fixed?]

end Token

/-! ## Flattening -/

namespace Tree

mutual

/-- What a tree keeps of the tokens that it was read from, in their order. -/
def traces : Tree → List Trace
  | leaf l pos => [.leaf l pos]
  | list elements pos => .opening pos :: (allTraces elements ++ [.closing])
  | hole => []

/-- What the trees of a row keep of the tokens that they were read from. -/
def allTraces : List Tree → List Trace
  | [] => []
  | t :: ts => t.traces ++ allTraces ts

end

@[simp]
theorem allTraces_eq_flatMap (ts : List Tree) : allTraces ts = ts.flatMap traces := by
  induction ts with
  | nil => rfl
  | cons t ts ih => rw [allTraces, ih, List.flatMap_cons]

/-- The traces of an element stand between those of the parentheses. -/
theorem traces_subset_of_mem {elements : List Tree} {t : Tree} (h : t ∈ elements)
    (pos : Position) : t.traces ⊆ (list elements pos).traces := by
  intro r hr
  rw [traces, allTraces_eq_flatMap]
  apply List.mem_cons_of_mem
  apply List.mem_append_left
  exact List.mem_flatMap.2 ⟨t, h, hr⟩

mutual

/-- The greatest number of lists of a tree that lie inside each other. -/
def nesting : Tree → Nat
  | leaf .. => 0
  | list elements _ => maxNesting elements + 1
  | hole => 0

/-- The greatest nesting of the trees of a row. -/
def maxNesting : List Tree → Nat
  | [] => 0
  | t :: ts => max t.nesting (maxNesting ts)

end

theorem maxNesting_le_iff {ts : List Tree} {n : Nat} :
    maxNesting ts ≤ n ↔ ∀ t ∈ ts, t.nesting ≤ n := by
  induction ts with
  | nil => simp [maxNesting]
  | cons t ts ih => rw [maxNesting, Nat.max_le, ih, List.forall_mem_cons]

/-- An element nests less than its list. -/
theorem nesting_lt_of_mem {elements : List Tree} {t : Tree} (h : t ∈ elements) (pos : Position) :
    t.nesting < (list elements pos).nesting :=
  Nat.lt_succ_of_le (maxNesting_le_iff.1 (Nat.le_refl _) t h)

/-! ## One step of reading -/

section Steps

variable {limit depth : Int} {opened : List OpenList} {t : Token} {ts : List Token}

/-- Puts a tree that has been read into the innermost open list and reads on. Without an open list
the tree is what was to be read. -/
def deliver (limit depth : Int) (tree : Tree) : List OpenList → List Token → Outcome Tree
  | [], ts => (.ok tree, ts)
  | around :: opened, ts => readOn limit depth (around.push tree :: opened) ts

theorem readOn_opens (h : t.role = .opens) (hdepth : depth + opened.length + 1 ≤ limit) :
    readOn limit depth opened (t :: ts) = readOn limit depth (⟨t.pos, []⟩ :: opened) ts := by
  rw [readOn.eq_def]
  simp only [h]
  rw [if_neg (by omega)]

theorem readOn_tooDeep (h : t.role = .opens) (hdepth : limit < depth + opened.length + 1) :
    readOn limit depth opened (t :: ts) = (.error (.nestingTooDeep limit t.pos), t :: ts) := by
  rw [readOn.eq_def]
  simp only [h]
  rw [if_pos hdepth]

theorem readOn_closes {l : OpenList} (h : t.role = .closes) :
    readOn limit depth (l :: opened) (t :: ts) = deliver limit depth l.close opened ts := by
  rw [readOn.eq_def]
  simp only [h]
  cases opened with
  | nil => rfl
  | cons around opened => rfl

theorem readOn_unopened (h : t.role = .closes) :
    readOn limit depth [] (t :: ts) = (.error (.unexpectedClose t.pos), t :: ts) := by
  rw [readOn.eq_def]
  simp only [h]

theorem readOn_leaf {l : Leaf} (h : t.role = .leaf l) :
    readOn limit depth opened (t :: ts) = deliver limit depth (leaf l t.pos) opened ts := by
  rw [readOn.eq_def]
  simp only [h]
  cases opened with
  | nil => rfl
  | cons around opened => rfl

theorem readOn_ends (h : t.role = .ends) :
    readOn limit depth opened (t :: ts) = (.error (unfinished opened), t :: ts) := by
  rw [readOn.eq_def]
  simp only [h]

end Steps

/-! ## Reading what leaves the traces of a tree -/

section Complete

variable {limit depth : Int} {opened : List OpenList} {tokens rest : List Token}

/-- The row of the elements of a list is read into the list, if each element alone is. -/
theorem readOn_of_row_traces {l : OpenList} {elements : List Tree}
    (helement : ∀ tree ∈ elements, ∀ {l : OpenList} {tokens rest : List Token},
      tokens.map Token.trace = tree.traces →
        readOn limit depth (l :: opened) (tokens ++ rest) =
          readOn limit depth (l.push tree :: opened) rest)
    (htraces : tokens.map Token.trace = elements.flatMap traces) :
    readOn limit depth (l :: opened) (tokens ++ rest) =
      readOn limit depth (⟨l.pos, elements.reverse ++ l.elements⟩ :: opened) rest := by
  induction elements generalizing l tokens with
  | nil =>
    obtain rfl : tokens = [] := by simpa using htraces
    rfl
  | cons tree elements ih =>
    rw [List.flatMap_cons, List.map_eq_append_iff] at htraces
    obtain ⟨first, more, rfl, hfirst, hmore⟩ := htraces
    obtain ⟨htree, helements⟩ := List.forall_mem_cons.1 helement
    rw [List.append_assoc, htree hfirst, ih helements hmore]
    simp [OpenList.push]

/-- Tokens that leave the traces of a tree are read as that tree, if it nests within the limit. -/
theorem readOn_of_traces {tree : Tree} (hcomplete : tree.isComplete = true)
    (htraces : tokens.map Token.trace = tree.traces)
    (hdepth : depth + opened.length + tree.nesting ≤ limit) :
    readOn limit depth opened (tokens ++ rest) = deliver limit depth tree opened rest := by
  induction tree generalizing opened tokens rest with
  | leaf l pos =>
    rw [traces, List.map_eq_singleton_iff] at htraces
    obtain ⟨t, rfl, ht⟩ := htraces
    obtain ⟨hrole, rfl⟩ := Token.trace_eq_leaf_iff.1 ht
    exact readOn_leaf hrole
  | list elements pos ih =>
    -- The row is an opening parenthesis, the rows of the elements, and a closing parenthesis.
    rw [traces, allTraces_eq_flatMap, List.map_eq_cons_iff] at htraces
    obtain ⟨t, tokens, rfl, ht, htokens⟩ := htraces
    rw [List.map_eq_append_iff] at htokens
    obtain ⟨inner, last, rfl, hinner, hlast⟩ := htokens
    rw [List.map_eq_singleton_iff] at hlast
    obtain ⟨c, rfl, hc⟩ := hlast
    obtain ⟨hopens, rfl⟩ := Token.trace_eq_opening_iff.1 ht
    have hcloses := Token.trace_eq_closing_iff.1 hc
    have hlist : depth + opened.length + 1 ≤ limit := by
      rw [nesting] at hdepth
      omega
    have helement : ∀ e ∈ elements, ∀ {l : OpenList} {tokens rest : List Token},
        tokens.map Token.trace = e.traces →
          readOn limit depth (l :: opened) (tokens ++ rest) =
            readOn limit depth (l.push e :: opened) rest := by
      intro e he l tokens rest htraces
      have hwhole : e.isComplete = true := by
        rw [isComplete, areComplete_eq_all, List.all_eq_true] at hcomplete
        exact hcomplete e he
      have hlt := nesting_lt_of_mem he t.pos
      have hroom : depth + (l :: opened).length + e.nesting ≤ limit := by
        rw [List.length_cons]
        omega
      exact ih e he hwhole htraces hroom
    rw [List.cons_append, readOn_opens hopens hlist, List.append_assoc,
      readOn_of_row_traces helement hinner, List.singleton_append, readOn_closes hcloses]
    simp [OpenList.close]
  | hole => cases hcomplete

end Complete

/-! ## What is read leaves the traces of the tree -/

/-- What the open lists keep of the tokens that have been read, the innermost list first. -/
def openTraces : List OpenList → List Trace
  | [] => []
  | l :: around => openTraces around ++ .opening l.pos :: l.elements.reverse.flatMap traces

@[simp]
theorem openTraces_push (l : OpenList) (opened : List OpenList) (t : Tree) :
    openTraces (l.push t :: opened) = openTraces (l :: opened) ++ t.traces := by
  simp [openTraces, OpenList.push]

@[simp]
theorem openTraces_open (opened : List OpenList) (pos : Position) :
    openTraces (⟨pos, []⟩ :: opened) = openTraces opened ++ [.opening pos] := by
  simp [openTraces]

/-- Closing the innermost list keeps one more token. -/
theorem openTraces_append_close (l : OpenList) (opened : List OpenList) :
    openTraces opened ++ l.close.traces = openTraces (l :: opened) ++ [.closing] := by
  simp [openTraces, OpenList.close, traces]

/-- A tree has no holes, and no more than `room` of its lists lie inside each other. -/
def FitsIn (room : Int) (t : Tree) : Prop :=
  t.isComplete = true ∧ (t.nesting : Int) ≤ room

/-- The lists `opened`, the innermost first, lie within the limit, and so do their elements. -/
def Within (limit depth : Int) : List OpenList → Prop
  | [] => depth ≤ limit
  | l :: around => depth + (l :: around).length ≤ limit ∧
      (∀ t ∈ l.elements, t.FitsIn (limit - (depth + (l :: around).length))) ∧
      Within limit depth around

section Sound

variable {limit depth : Int} {opened : List OpenList} {ts rest : List Token} {tree : Tree}

theorem Within.depth_le (h : Within limit depth opened) : depth + opened.length ≤ limit := by
  cases opened with
  | nil => simpa [Within] using h
  | cons l around => exact h.1

/-- A list that has just been opened has nothing in it that could nest too deep. -/
theorem Within.open (h : Within limit depth opened) (hdepth : depth + opened.length + 1 ≤ limit)
    (pos : Position) : Within limit depth (⟨pos, []⟩ :: opened) := by
  refine ⟨?_, by simp, h⟩
  rw [List.length_cons]
  omega

/-- The innermost list may take an element that fits in. -/
theorem Within.push {l : OpenList} {t : Tree} (h : Within limit depth (l :: opened))
    (ht : t.FitsIn (limit - (depth + (l :: opened).length))) :
    Within limit depth (l.push t :: opened) := by
  obtain ⟨hdepth, helements, haround⟩ := h
  exact ⟨hdepth, List.forall_mem_cons.2 ⟨ht, helements⟩, haround⟩

/-- A leaf fits in everywhere. -/
theorem Within.leaf_fitsIn (h : Within limit depth opened) (l : Leaf) (pos : Position) :
    (leaf l pos).FitsIn (limit - (depth + opened.length)) := by
  have := h.depth_le
  refine ⟨rfl, ?_⟩
  rw [nesting]
  omega

/-- A list that is closed fits in where it was opened. -/
theorem Within.close_fitsIn {l : OpenList} (h : Within limit depth (l :: opened)) :
    l.close.FitsIn (limit - (depth + opened.length)) := by
  obtain ⟨hdepth, helements, -⟩ := h
  rw [List.length_cons] at hdepth helements
  constructor
  · rw [OpenList.close, isComplete, areComplete_eq_all, List.all_eq_true]
    exact fun t ht => (helements t (List.mem_reverse.1 ht)).1
  · have hmax : maxNesting l.elements.reverse ≤
        (limit - (depth + (opened.length + 1 : Nat))).toNat := by
      rw [maxNesting_le_iff]
      intro t ht
      have := (helements t (List.mem_reverse.1 ht)).2
      omega
    rw [OpenList.close, nesting]
    omega

/-- `ReadsTo limit depth before ts tree rest` says that the tree leaves the row `rest` of the row
`ts`, and keeps the traces `before` and those of the tokens that are gone. -/
def ReadsTo (limit depth : Int) (before : List Trace) (ts : List Token) (tree : Tree)
    (rest : List Token) : Prop :=
  ∃ consumed, ts = consumed ++ rest ∧ before ++ consumed.map Token.trace = tree.traces ∧
    tree.FitsIn (limit - depth)

theorem ReadsTo.cons {before : List Trace} {t : Token}
    (h : ReadsTo limit depth (before ++ [t.trace]) ts tree rest) :
    ReadsTo limit depth before (t :: ts) tree rest := by
  obtain ⟨consumed, rfl, htraces, hfits⟩ := h
  refine ⟨t :: consumed, rfl, ?_, hfits⟩
  rw [← htraces, List.append_assoc]
  rfl

/-- A tree that fits in may be delivered, if reading on is sound. -/
theorem readsTo_of_deliver {t : Tree}
    (ih : ∀ {opened : List OpenList}, Within limit depth opened →
      readOn limit depth opened ts = (.ok tree, rest) →
        ReadsTo limit depth (openTraces opened) ts tree rest)
    (hopened : Within limit depth opened) (ht : t.FitsIn (limit - (depth + opened.length)))
    (h : deliver limit depth t opened ts = (.ok tree, rest)) :
    ReadsTo limit depth (openTraces opened ++ t.traces) ts tree rest := by
  cases opened with
  | nil =>
    obtain ⟨rfl, rfl⟩ : t = tree ∧ ts = rest := by simpa [deliver] using h
    refine ⟨[], rfl, by simp [openTraces], ?_⟩
    simpa using ht
  | cons around opened =>
    rw [← openTraces_push]
    exact ih (hopened.push ht) h

/-- A tree that is read keeps the traces of its tokens, has no holes and nests within the
limit. -/
theorem readsTo_of_readOn (hopened : Within limit depth opened)
    (h : readOn limit depth opened ts = (.ok tree, rest)) :
    ReadsTo limit depth (openTraces opened) ts tree rest := by
  -- With each token the open lists change, and what they keep remains what has been read so far.
  induction ts generalizing opened with
  | nil => simp [readOn] at h
  | cons t ts ih =>
    apply ReadsTo.cons
    cases hrole : t.role with
    | opens =>
      by_cases hdepth : depth + opened.length + 1 ≤ limit
      · rw [readOn_opens hrole hdepth] at h
        have htrace : t.trace = .opening t.pos := Token.trace_eq_opening_iff.2 ⟨hrole, rfl⟩
        rw [htrace, ← openTraces_open]
        exact ih (hopened.open hdepth t.pos) h
      · rw [readOn_tooDeep hrole (Int.not_le.1 hdepth)] at h
        cases h
    | closes =>
      cases opened with
      | nil =>
        rw [readOn_unopened hrole] at h
        cases h
      | cons l opened =>
        rw [readOn_closes hrole] at h
        have htrace : t.trace = .closing := Token.trace_eq_closing_iff.2 hrole
        rw [htrace, ← openTraces_append_close]
        exact readsTo_of_deliver ih hopened.2.2 hopened.close_fitsIn h
    | leaf l =>
      rw [readOn_leaf hrole] at h
      have htrace : t.trace = .leaf l t.pos := Token.trace_eq_leaf_iff.2 ⟨hrole, rfl⟩
      rw [htrace]
      exact readsTo_of_deliver ih hopened (hopened.leaf_fitsIn l t.pos) h
    | ends =>
      rw [readOn_ends hrole] at h
      cases h

end Sound

/-! ## Rows of trees -/

section Rows

variable {limit : Int} {ts rest tokens : List Token}

/-- A tree is not read from a row that is at its end. -/
theorem atEnd_of_read {tree : Tree} (h : read limit 0 ts = (.ok tree, rest)) :
    atEnd ts = false := by
  cases ts with
  | nil => simp [read, readOn] at h
  | cons t ts =>
    show t.isEnd = false
    by_contra hend
    rw [Bool.not_eq_false, ← Token.role_eq_ends_iff] at hend
    rw [read, readOn_ends hend] at h
    cases h

theorem readAll_of_atEnd (h : atEnd ts = true) : readAll limit ts = (.ok [], ts) := by
  rw [readAll, if_pos h]

/-- Goes on to every further tree, once the first has been read. -/
def thenAll (limit : Int) : Outcome Tree → Outcome (List Tree)
  | (.error e, rest) => (.error e, rest)
  | (.ok tree, rest) => ((tree :: ·) <$> (readAll limit rest).1, (readAll limit rest).2)

/-- Before a row ends there is a tree to be read. -/
theorem readAll_of_not_atEnd (h : atEnd ts = false) :
    readAll limit ts = thenAll limit (read limit 0 ts) := by
  rw [readAll, if_neg (by simp [h])]
  split
  next e rest he => exact (congrArg (thenAll limit) he).symm
  next tree rest he => exact (congrArg (thenAll limit) he).symm

/-- Behind the first tree, the rest of a row is read as if it stood alone. -/
theorem readAll_of_read {tree : Tree} (h : read limit 0 ts = (.ok tree, rest)) :
    readAll limit ts = ((tree :: ·) <$> (readAll limit rest).1, (readAll limit rest).2) := by
  rw [readAll_of_not_atEnd (atEnd_of_read h), h, thenAll]

theorem readAll_of_error {e : ParseError} (hend : atEnd ts = false)
    (h : read limit 0 ts = (.error e, rest)) : readAll limit ts = (.error e, rest) := by
  rw [readAll_of_not_atEnd hend, h, thenAll]

/-- What holds of rows that are at their end, and of rows whose first tree fails, and of a row if it
holds of what is left behind the first tree, holds of every row. -/
@[elab_as_elim]
theorem row_induct (limit : Int) {motive : List Token → Prop}
    (done : ∀ ts, atEnd ts = true → motive ts)
    (failed : ∀ ts e rest, atEnd ts = false → read limit 0 ts = (.error e, rest) → motive ts)
    (tree : ∀ ts tree rest, read limit 0 ts = (.ok tree, rest) → motive rest → motive ts)
    (ts : List Token) : motive ts := by
  -- The induction is on the length of the row, of which every tree takes some.
  induction hlength : ts.length using Nat.strongRecOn generalizing ts with
  | ind n ih =>
    cases hend : atEnd ts with
    | true => exact done ts hend
    | false =>
      rcases hread : read limit 0 ts with ⟨e | t, rest⟩
      · exact failed ts e rest hend hread
      · have hlt : rest.length < n := hlength ▸ length_lt_of_read hread
        exact tree ts t rest hread (ih _ hlt rest rfl)

/-- Tokens that leave the traces of a row of trees are read as those trees, if these nest within
the limit, whatever follows them. -/
theorem readAll_append {trees : List Tree} (hfits : ∀ t ∈ trees, t.FitsIn limit)
    (htraces : tokens.map Token.trace = trees.flatMap traces) (rest : List Token) :
    readAll limit (tokens ++ rest) =
      ((trees ++ ·) <$> (readAll limit rest).1, (readAll limit rest).2) := by
  induction trees generalizing tokens with
  | nil =>
    obtain rfl : tokens = [] := by simpa using htraces
    exact Prod.ext (id_map _).symm rfl
  | cons tree trees ih =>
    rw [List.flatMap_cons, List.map_eq_append_iff] at htraces
    obtain ⟨first, more, rfl, hfirst, hmore⟩ := htraces
    obtain ⟨⟨hcomplete, hnesting⟩, htrees⟩ := List.forall_mem_cons.1 hfits
    have hdepth : (0 : Int) + ([] : List OpenList).length + tree.nesting ≤ limit := by
      simpa using hnesting
    have hread : read limit 0 (first ++ (more ++ rest)) = (.ok tree, more ++ rest) :=
      readOn_of_traces hcomplete hfirst hdepth
    rw [List.append_assoc, readAll_of_read hread, ih htrees hmore]
    cases (readAll limit rest).1 <;> rfl

/-- Tokens that leave the traces of a row of trees, and nothing behind them, are read as those trees,
if these nest within the limit. -/
theorem readAll_of_traces {trees : List Tree} (hfits : ∀ t ∈ trees, t.FitsIn limit)
    (htraces : tokens.map Token.trace = trees.flatMap traces) (hrest : atEnd rest = true) :
    readAll limit (tokens ++ rest) = (.ok trees, rest) := by
  rw [readAll_append hfits htraces, readAll_of_atEnd hrest]
  exact Prod.ext (congrArg Except.ok (List.append_nil trees)) rfl

/-- The first tree of a row is read like any other. -/
theorem read_of_readFirst {options : ReadOptions} {tree : Tree}
    (h : (readFirst options ts).1 = .ok tree) :
    ∃ rest, read options.maxDepth 0 ts = (.ok tree, rest) := by
  rw [readFirst] at h
  split at h
  · cases h
  split at h
  next first t rest hread =>
    split at h
    · cases h
    · cases h
      exact ⟨t :: rest, hread⟩
  next => exact ⟨_, Prod.ext h rfl⟩

/-- A tree that only the end of input follows is the first tree of a row. -/
theorem readFirst_of_read {options : ReadOptions} {tree : Tree} {eof : Token}
    (heof : eof.isEnd = true) (h : read options.maxDepth 0 ts = (.ok tree, [eof])) :
    readFirst options ts = (.ok tree, [eof]) := by
  rw [readFirst, if_neg (by simp [atEnd_of_read h]), h]
  simp [heof]

/-- A tree keeps the traces of the tokens that it was read from, and fits in. -/
theorem traces_of_read {tree : Tree} (hlimit : 0 ≤ limit)
    (h : read limit 0 ts = (.ok tree, rest)) :
    ∃ consumed, ts = consumed ++ rest ∧ consumed.map Token.trace = tree.traces ∧
      tree.FitsIn limit := by
  have hread := @readsTo_of_readOn limit 0 [] ts rest tree hlimit h
  rw [ReadsTo, Int.sub_zero] at hread
  exact hread

/-- Trees keep the traces of the tokens that they were read from, and fit in. -/
theorem traces_of_readAll {trees : List Tree} (hlimit : 0 ≤ limit)
    (h : readAll limit ts = (.ok trees, rest)) :
    ∃ consumed, ts = consumed ++ rest ∧ consumed.map Token.trace = trees.flatMap traces ∧
      ∀ t ∈ trees, t.FitsIn limit := by
  induction ts using row_induct limit generalizing trees with
  | done ts hend =>
    rw [readAll_of_atEnd hend] at h
    cases h
    exact ⟨[], rfl, rfl, by simp⟩
  | failed ts e more hend hread =>
    rw [readAll_of_error hend hread] at h
    cases h
  | tree ts tree more hread ih =>
    obtain ⟨first, rfl, hfirst, hfits⟩ := traces_of_read hlimit hread
    rw [readAll_of_read hread, Prod.mk.injEq] at h
    obtain ⟨hmore, hrest⟩ := h
    cases hall : (readAll limit more).1 with
    | error e =>
      rw [hall] at hmore
      cases hmore
    | ok others =>
      rw [hall] at hmore
      obtain rfl : tree :: others = trees := Except.ok.inj hmore
      obtain ⟨consumed, rfl, htraces, hothers⟩ := ih (Prod.ext hall hrest)
      refine ⟨first ++ consumed, (List.append_assoc ..).symm, ?_,
        List.forall_mem_cons.2 ⟨hfits, hothers⟩⟩
      rw [List.map_append, hfirst, htraces, List.flatMap_cons]

/-- All trees are read up to the end of a row. -/
theorem atEnd_of_readAll {trees : List Tree} (h : readAll limit ts = (.ok trees, rest)) :
    atEnd rest = true := by
  induction ts using row_induct limit generalizing trees with
  | done ts hend =>
    rw [readAll_of_atEnd hend] at h
    cases h
    exact hend
  | failed ts e more hend hread =>
    rw [readAll_of_error hend hread] at h
    cases h
  | tree ts tree more hread ih =>
    rw [readAll_of_read hread, Prod.mk.injEq] at h
    obtain ⟨hmore, hrest⟩ := h
    cases hall : (readAll limit more).1 with
    | error e =>
      rw [hall] at hmore
      cases hmore
    | ok others => exact ih (Prod.ext hall hrest)

end Rows

end Tree

end CrateNotation
