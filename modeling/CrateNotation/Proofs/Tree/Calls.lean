import CrateNotation.Proofs.Tree.Blame
import CrateNotation.Tree.Cursor

/-!
# Calls to a cursor

A cursor can be called in any way and in any order, and be called again after an error.  It never
goes back, and it never passes the first end of input, even if there are further tokens behind it;
so it always stands on a token.  A tree is read from the tokens that the cursor passes.  An error is
about the token that the cursor stands on then.

All this follows from one fact about readers: what they leave of a row is its tail behind tokens
none of which is the end of input, and begins with the token that an error is about.  One call is a
reader or a step, and many calls are an induction on the list of them.

## Main Definitions

* `ParseError.IsAbout` — the token that an error of a reader is about
* `Tree.Halts` — how readers leave a row
* `Cursor.Served`, `Cursor.AllServed` — what is known of a call, and of calls one after the other

## Main Statements

* `Tree.halts_readOn` and its companions — all readers leave a row in this way
* `Cursor.served_perform` — what a call does
* `Cursor.calls_served` — what calls do
-/

namespace CrateNotation

/-- `e.IsAbout limit t` says that the error `e`, which is one of a reader with the given limit, is
about the token `t`. -/
def ParseError.IsAbout (limit : Int) (t : Token) : ParseError → Prop
  | unexpectedClose pos => t.kind = .closeParen ∧ t.pos = pos
  | nestingTooDeep given pos => given = limit ∧ t.pos = pos
  | unexpectedToken lexeme pos => t.lexeme = lexeme ∧ t.pos = pos
  | unterminatedList _ | emptyInput => t.isEnd = true
  | expected .. | lexical _ => False

/-! ## What readers leave -/

namespace Tree

/-- `Halts limit ts outcome` says how a reader has left the row `ts`: it has passed no end of input,
and if it has failed, then the error is about the next token. -/
structure Halts {α : Type} (limit : Int) (ts : List Token) (outcome : Outcome α) : Prop where
  passed : ∃ used, ts = used ++ outcome.2 ∧ ∀ t ∈ used, t.isEnd = false
  blamed : ∀ e, outcome.1 = .error e → ∃ t ∈ outcome.2.head?, e.IsAbout limit t

section Halts

variable {α β : Type} {limit depth : Int} {ts rest : List Token} {t : Token} {e : ParseError}

theorem halts_ok (a : α) (ts : List Token) : Halts limit ts (.ok a, ts) where
  passed := ⟨[], rfl, List.forall_mem_nil _⟩
  blamed := nofun

/-- An error may be about the token that a reader has come to. -/
theorem halts_error (h : e.IsAbout limit t) :
    Halts limit (t :: ts) ((.error e, t :: ts) : Outcome α) where
  passed := ⟨[], rfl, List.forall_mem_nil _⟩
  blamed := by
    intro e' he
    obtain rfl := Except.error.inj he
    exact ⟨t, rfl, h⟩

/-- A reader goes on where another one has stopped. -/
theorem Halts.trans {a : α} {outcome : Outcome β}
    (h : Halts limit ts ((.ok a, rest) : Outcome α)) (hrest : Halts limit rest outcome) :
    Halts limit ts outcome where
  passed := by
    obtain ⟨first, rfl, hfirst⟩ := h.passed
    obtain ⟨more, hmore, hnot⟩ := hrest.passed
    refine ⟨first ++ more, ?_, List.forall_mem_append.2 ⟨hfirst, hnot⟩⟩
    rw [List.append_assoc, ← hmore]
  blamed := hrest.blamed

/-- Any token but the end of input may be passed. -/
theorem Halts.cons {outcome : Outcome α} (h : Halts limit ts outcome) (ht : t.isEnd = false) :
    Halts limit (t :: ts) outcome where
  passed := by
    obtain ⟨used, hused, hnot⟩ := h.passed
    exact ⟨t :: used, congrArg (t :: ·) hused, List.forall_mem_cons.2 ⟨ht, hnot⟩⟩
  blamed := h.blamed

/-- An error ends all reading. -/
theorem Halts.error (h : Halts limit ts ((.error e, rest) : Outcome α)) :
    Halts limit ts ((.error e, rest) : Outcome β) where
  passed := h.passed
  blamed := by
    intro e' he
    obtain rfl := Except.error.inj he
    exact h.blamed e rfl

/-- What is made of a result does not matter. -/
theorem Halts.map {outcome : Outcome α} (h : Halts limit ts outcome) (f : α → β) :
    Halts limit ts (f <$> outcome.1, outcome.2) := by
  obtain ⟨result, rest⟩ := outcome
  cases result with
  | error e => exact h.error
  | ok a => exact ⟨h.passed, nofun⟩

/-! ### Readers -/

/-- If reading on leaves a row in this way, then so does delivering a tree. -/
theorem halts_deliver {opened : List OpenList}
    (ih : ∀ opened, Halts limit ts (readOn limit depth opened ts)) (tree : Tree) :
    Halts limit ts (deliver limit depth tree opened ts) := by
  cases opened with
  | nil => exact halts_ok tree ts
  | cons around opened => exact ih (around.push tree :: opened)

/-- That a row ends inside lists is about the end of input. -/
theorem isAbout_unfinished (ht : t.isEnd = true) (opened : List OpenList) :
    (unfinished opened).IsAbout limit t := by
  cases opened with
  | nil => exact ht
  | cons l around => exact ht

theorem halts_readOn (h : Closed ts) (opened : List OpenList) :
    Halts limit ts (readOn limit depth opened ts) := by
  induction ts generalizing opened with
  | nil => exact absurd rfl h.ne_nil
  | cons t ts ih =>
    cases hrole : t.role with
    | opens =>
      have hend : t.isEnd = false := Token.isEnd_of_role_ne (by simp [hrole])
      by_cases hdepth : depth + opened.length + 1 ≤ limit
      · rw [readOn_opens hrole hdepth]
        exact (ih (h.tail hend) _).cons hend
      · rw [readOn_tooDeep hrole (Int.not_le.1 hdepth)]
        exact halts_error ⟨rfl, rfl⟩
    | closes =>
      have hend : t.isEnd = false := Token.isEnd_of_role_ne (by simp [hrole])
      cases opened with
      | nil =>
        rw [readOn_unopened hrole]
        exact halts_error ⟨Token.kind_of_closes hrole, rfl⟩
      | cons l opened =>
        rw [readOn_closes hrole]
        exact (halts_deliver (ih (h.tail hend)) l.close).cons hend
    | leaf l =>
      have hend : t.isEnd = false := Token.isEnd_of_role_ne (by simp [hrole])
      rw [readOn_leaf hrole]
      exact (halts_deliver (ih (h.tail hend)) (leaf l t.pos)).cons hend
    | ends =>
      rw [readOn_ends hrole]
      exact halts_error (isAbout_unfinished (Token.role_eq_ends_iff.1 hrole) opened)

theorem halts_read (h : Closed ts) : Halts limit ts (read limit depth ts) :=
  halts_readOn h []

theorem halts_readList (h : Closed ts) : Halts limit ts (readList limit depth ts) := by
  cases ts with
  | nil => exact absurd rfl h.ne_nil
  | cons t ts =>
    rw [readList]
    split
    · exact halts_error ⟨rfl, rfl⟩
    · cases hend : t.isEnd with
      | true => exact halts_readOn h _
      | false => exact (halts_readOn (h.tail hend) _).cons hend

theorem halts_readAll (h : Closed ts) : Halts limit ts (readAll limit ts) := by
  induction ts using row_induct limit with
  | done ts hend =>
    rw [readAll_of_atEnd hend]
    exact halts_ok [] ts
  | failed ts e rest hend hread =>
    have hfirst : Halts limit ts (read limit 0 ts) := halts_read h
    rw [hread] at hfirst
    rw [readAll_of_error hend hread]
    exact hfirst.error
  | tree ts tree rest hread ih =>
    have hfirst : Halts limit ts (read limit 0 ts) := halts_read h
    have hrest := closed_read limit 0 h
    rw [hread] at hfirst hrest
    rw [readAll_of_read hread]
    exact hfirst.trans ((ih hrest).map (tree :: ·))

theorem halts_readFirst {options : ReadOptions} (h : Closed ts) :
    Halts options.maxDepth ts (readFirst options ts) := by
  have hfirst : Halts options.maxDepth ts (read options.maxDepth 0 ts) := halts_read h
  rw [readFirst]
  split
  next hend =>
    cases ts with
    | nil => exact absurd rfl h.ne_nil
    | cons t ts => exact halts_error hend
  next =>
    split
    next tree t rest hread =>
      rw [hread] at hfirst
      split
      · exact hfirst.trans (halts_error ⟨rfl, rfl⟩)
      · exact hfirst
    next => exact hfirst

end Halts

/-- A tree is read from the tokens that are gone, whatever lists it is said to lie in. -/
theorem exists_traces_of_read {limit depth : Int} {ts rest : List Token} {tree : Tree}
    (h : read limit depth ts = (.ok tree, rest)) :
    ∃ used, ts = used ++ rest ∧ used.map Token.trace = tree.traces := by
  by_cases hdepth : depth ≤ limit
  · obtain ⟨used, hused, htraces, -⟩ := @readsTo_of_readOn limit depth [] ts rest tree hdepth h
    exact ⟨used, hused, htraces⟩
  · -- No list may be opened here, so that the tree is a leaf.
    cases ts with
    | nil => cases h
    | cons t ts =>
      rw [read] at h
      cases hrole : t.role with
      | opens =>
        have hroom : limit < depth + ([] : List OpenList).length + 1 := by
          simp only [List.length_nil]
          omega
        rw [readOn_tooDeep hrole hroom] at h
        cases h
      | closes =>
        rw [readOn_unopened hrole] at h
        cases h
      | ends =>
        rw [readOn_ends hrole] at h
        cases h
      | leaf l =>
        rw [readOn_leaf hrole] at h
        cases h
        exact ⟨[t], rfl, congrArg ([·]) (Token.trace_eq_leaf_iff.2 ⟨hrole, rfl⟩)⟩

end Tree

/-! ## One call -/

namespace Cursor

open CrateNotation.Tree

variable {options : ReadOptions} {tokens used : List Token} {c c' : Cursor}

/-- A cursor stands on a row of tokens, of which it has passed no end of input. -/
def IsOn (tokens : List Token) (c : Cursor) : Prop :=
  ∃ before, tokens = before ++ c.ahead ∧ before.length = c.passed ∧ ∀ t ∈ before, t.isEnd = false

/-- From `c` to `c'` a cursor passes the tokens `used`, none of which is the end of input. -/
structure Passes (c : Cursor) (used : List Token) (c' : Cursor) : Prop where
  ahead_eq : c.ahead = used ++ c'.ahead
  passed_eq : c'.passed = c.passed + used.length
  not_end : ∀ t ∈ used, t.isEnd = false

/-- What is known of a call to a cursor on a row of tokens: `c` is the cursor before, and `c'` the one
after. -/
structure Served (options : ReadOptions) (tokens : List Token) (c : Cursor) (call : Call)
    (reply : Except ParseError Reply) (c' : Cursor) : Prop where
  /-- The cursor does not go back. -/
  forward : c.passed ≤ c'.passed
  /-- It does not pass the first end of input. -/
  bounded : c'.passed ≤ tokens.findIdx Token.isEnd
  /-- It stands on a token of the row. -/
  in_row : tokens[c'.passed]? = some c'.peek
  /-- The token that it is asked for is the one that it stands on. -/
  seen : call = .peek → reply = .ok (.token c'.peek) ∧ c'.passed = c.passed
  /-- A tree is read from the tokens that are passed. -/
  read : ∀ depth t, call = .tree depth → reply = .ok (.tree t) →
    (tokens.extract c.passed c'.passed).map Token.trace = t.traces
  /-- An error is about the token that the cursor stands on. -/
  blamed : ∀ e, reply = .error e → e.IsAbout options.maxDepth c'.peek

theorem head?_ahead (c : Cursor) : c.ahead.head? = some c.peek :=
  List.head?_eq_some_head c.closed.ne_nil

/-- A cursor that has passed no end of input stands in front of the first one, or on it. -/
theorem IsOn.bounded (h : c.IsOn tokens) : c.passed ≤ tokens.findIdx Token.isEnd := by
  obtain ⟨before, rfl, hlength, hnot⟩ := h
  have hbefore : before.findIdx Token.isEnd = before.length :=
    List.findIdx_eq_length_of_false hnot
  rw [List.findIdx_append, hbefore, if_neg (Nat.lt_irrefl _), ← hlength]
  exact Nat.le_add_left _ _

theorem IsOn.in_row (h : c.IsOn tokens) : tokens[c.passed]? = some c.peek := by
  obtain ⟨before, rfl, hlength, -⟩ := h
  rw [← hlength, List.getElem?_append_right (Nat.le_refl _), Nat.sub_self, ← List.head?_eq_getElem?,
    head?_ahead]

theorem passes_nil (c : Cursor) : c.Passes [] c where
  ahead_eq := rfl
  passed_eq := rfl
  not_end := List.forall_mem_nil _

/-- A cursor stays on its row. -/
theorem Passes.isOn (hpasses : c.Passes used c') (h : c.IsOn tokens) : c'.IsOn tokens := by
  obtain ⟨before, rfl, hlength, hnot⟩ := h
  refine ⟨before ++ used, ?_, ?_, List.forall_mem_append.2 ⟨hnot, hpasses.not_end⟩⟩
  · rw [List.append_assoc, ← hpasses.ahead_eq]
  · rw [List.length_append, hlength, hpasses.passed_eq]

/-- What a cursor passes is a part of its row. -/
theorem Passes.extract_eq (hpasses : c.Passes used c') (h : c.IsOn tokens) :
    tokens.extract c.passed c'.passed = used := by
  obtain ⟨before, rfl, hlength, -⟩ := h
  rw [List.extract_eq_take_drop, ← hlength, List.drop_left, hpasses.ahead_eq, hpasses.passed_eq,
    ← hlength, Nat.add_sub_cancel_left, List.take_left]

/-- A cursor goes to where a reader has stopped. -/
theorem exists_passes_moveTo {α : Type} (limit : Int) {outcome : Outcome α}
    (h : Halts limit c.ahead outcome) (hclosed : Closed outcome.2) :
    ∃ used, c.Passes used (c.moveTo outcome.2 hclosed) := by
  obtain ⟨used, hused, hnot⟩ := h.passed
  refine ⟨used, hused, ?_, hnot⟩
  rw [moveTo, hused, List.length_append, Nat.add_sub_cancel]

theorem exists_passes_advance (c : Cursor) : ∃ used, c.Passes used c.advance := by
  unfold advance
  split
  · exact ⟨[], c.passes_nil⟩
  next t ts hahead =>
    split
    · exact ⟨[], c.passes_nil⟩
    next ht =>
      have hlength : c.ahead.length = ts.length + 1 := congrArg List.length hahead
      refine ⟨[t], hahead, ?_, List.forall_mem_singleton.2 (by simpa using ht)⟩
      show c.passed + (c.ahead.length - ts.length) = c.passed + 1
      rw [hlength, Nat.add_sub_cancel_left]

/-- Whatever a cursor is asked, it passes some tokens, or none. -/
theorem exists_passes_perform (options : ReadOptions) (c : Cursor) (call : Call) :
    ∃ used, c.Passes used (c.perform options call).2 := by
  cases call with
  | first => exact exists_passes_moveTo options.maxDepth (halts_readFirst c.closed) _
  | all => exact exists_passes_moveTo options.maxDepth (halts_readAll c.closed) _
  | tree depth => exact exists_passes_moveTo options.maxDepth (halts_read c.closed) _
  | list depth => exact exists_passes_moveTo options.maxDepth (halts_readList c.closed) _
  | advance => exact c.exists_passes_advance
  | peek => exact ⟨[], c.passes_nil⟩
  | atEnd => exact ⟨[], c.passes_nil⟩

/-- The error of a call to a reader is about the token where the reader has stopped. -/
theorem isAbout_of_halts {α : Type} {limit : Int} {ts : List Token} {outcome : Outcome α}
    {e : ParseError} (h : Halts limit ts outcome) (hclosed : Closed outcome.2) {f : α → Reply}
    (he : f <$> outcome.1 = .error e) : e.IsAbout limit (c.moveTo outcome.2 hclosed).peek := by
  obtain ⟨t, ht, habout⟩ := (h.map f).blamed e he
  have hpeek := (c.moveTo outcome.2 hclosed).head?_ahead
  obtain rfl : t = (c.moveTo outcome.2 hclosed).peek := Option.some.inj (ht.symm.trans hpeek)
  exact habout

/-- An error is about the token that the cursor stands on after the call. -/
theorem isAbout_perform (c : Cursor) (call : Call) {e : ParseError}
    (he : (c.perform options call).1 = .error e) :
    e.IsAbout options.maxDepth (c.perform options call).2.peek := by
  cases call with
  | first => exact isAbout_of_halts (halts_readFirst c.closed) _ he
  | all => exact isAbout_of_halts (halts_readAll c.closed) _ he
  | tree depth => exact isAbout_of_halts (halts_read c.closed) _ he
  | list depth => exact isAbout_of_halts (halts_readList c.closed) _ he
  | advance => cases he
  | peek => cases he
  | atEnd => cases he

/-- A tree is read from the tokens that the cursor passes. -/
theorem traces_of_perform_tree {depth : Int} {t : Tree}
    (hpasses : c.Passes used (c.perform options (.tree depth)).2)
    (ht : (c.perform options (.tree depth)).1 = .ok (.tree t)) :
    used.map Token.trace = t.traces := by
  cases hread : read options.maxDepth depth c.ahead with
  | mk result rest =>
    simp only [perform, hread] at ht
    cases result with
    | error e => cases ht
    | ok t' =>
      cases ht
      obtain ⟨gone, hgone, htraces⟩ := exists_traces_of_read hread
      have hahead := hpasses.ahead_eq
      simp only [perform, moveTo, hread] at hahead
      rw [← htraces, List.append_cancel_right (hahead.symm.trans hgone)]

/-- One call serves, and the cursor stays on its row. -/
theorem served_perform (options : ReadOptions) (h : c.IsOn tokens) (call : Call) :
    Served options tokens c call (c.perform options call).1 (c.perform options call).2 ∧
      (c.perform options call).2.IsOn tokens := by
  obtain ⟨used, hpasses⟩ := c.exists_passes_perform options call
  have hon := hpasses.isOn h
  refine ⟨{
    forward := hpasses.passed_eq ▸ Nat.le_add_right _ _
    bounded := hon.bounded
    in_row := hon.in_row
    seen := ?_
    read := ?_
    blamed := fun _ he => c.isAbout_perform call he }, hon⟩
  · rintro rfl
    exact ⟨rfl, rfl⟩
  · rintro depth t rfl ht
    rw [hpasses.extract_eq h]
    exact traces_of_perform_tree hpasses ht

/-! ## Calls one after the other -/

/-- Calls to a cursor one after the other, each served from where the one before has left it. -/
inductive AllServed (options : ReadOptions) (tokens : List Token) :
    Cursor → List Call → List (Except ParseError Reply × Cursor) → Prop
  | nil (c : Cursor) : AllServed options tokens c [] []
  | cons {c c' : Cursor} {call : Call} {calls : List Call} {reply : Except ParseError Reply}
      {later : List (Except ParseError Reply × Cursor)}
      (first : Served options tokens c call reply c')
      (further : AllServed options tokens c' calls later) :
      AllServed options tokens c (call :: calls) ((reply, c') :: later)

theorem allServed_performAll (options : ReadOptions) (h : c.IsOn tokens) (calls : List Call) :
    AllServed options tokens c calls (c.performAll options calls) := by
  induction calls generalizing c with
  | nil => exact .nil c
  | cons call calls ih =>
    obtain ⟨hserved, hon⟩ := served_perform options h call
    exact .cons hserved (ih hon)

/-- On every row that closes with the end of input a cursor can be put, and serves all calls, in
any order and also after errors. -/
theorem calls_served (h : Closed tokens) (options : ReadOptions) :
    ∃ c, ofTokens? tokens = some c ∧ c.passed = 0 ∧
      ∀ calls, AllServed options tokens c calls (c.performAll options calls) := by
  refine ⟨⟨0, tokens, h⟩, dif_pos h, rfl, allServed_performAll options ?_⟩
  exact ⟨[], rfl, rfl, List.forall_mem_nil _⟩

/-- On the row `a (` with a further list behind its first end of input, a cursor reads the symbol,
is refused a list that is too deep, opens a list and comes to the end of input, and stays there. -/
theorem calls_served_early_end :
    let tokens : List Token := [⟨.symbol, "a", ⟨0, 1, 1⟩⟩, ⟨.openParen, "(", ⟨2, 1, 3⟩⟩,
      ⟨.endOfInput, "", ⟨3, 1, 4⟩⟩, ⟨.closeParen, ")", ⟨4, 1, 5⟩⟩, ⟨.endOfInput, "", ⟨5, 1, 6⟩⟩]
    let options : ReadOptions := { maxDepth := 1 }
    let calls : List Call := [.tree 0, .tree 1, .tree 0, .advance, .peek]
    Closed tokens ∧ ∃ c, ofTokens? tokens = some c ∧
      (c.performAll options calls).map (fun step => (step.1, step.2.passed)) =
        [(.ok (.tree (.leaf (.symbol "a") ⟨0, 1, 1⟩)), 1), (.error (.nestingTooDeep 1 ⟨2, 1, 3⟩), 1),
          (.error (.unterminatedList ⟨2, 1, 3⟩), 2), (.ok .done, 2),
          (.ok (.token ⟨.endOfInput, "", ⟨3, 1, 4⟩⟩), 2)] ∧
      AllServed options tokens c calls (c.performAll options calls) := by
  intro tokens options calls
  have hclosed : Closed tokens := by decide
  obtain ⟨c, hc, -, hserved⟩ := calls_served hclosed options
  refine ⟨hclosed, c, hc, ?_, hserved calls⟩
  obtain rfl : c = ⟨0, tokens, hclosed⟩ := by simpa [ofTokens?, hclosed] using hc.symm
  rfl

end Cursor

end CrateNotation
