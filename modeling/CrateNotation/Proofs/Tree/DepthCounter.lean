import CrateNotation.Proofs.Tree.Lexable
import CrateNotation.Tree.Cursor

/-!
# Reading and counting parentheses

Whether a row of tokens can be read, and what is wrong with it if it cannot, depends on its
parentheses only.  One pass that counts the open lists finds it out: it stops at the first
parenthesis that opens a list too many or closes one too many, and otherwise ends with the number
of lists that are still open.

The reader agrees with the pass on every row.  The proof takes the reader token by token:
`readAllOn` is the reader in the middle of a row, with the open lists at hand, and the counter is
their number.

The row is what lies ahead of a cursor.  A cursor that has been used before agrees with a pass over
the tokens that it has not passed, and not with one over all of them.  The tokens come back from the
trees with the lexemes of their kinds, which are their own in every text, but need not be in a row that
is put together by hand.

## Main Definitions

* `countDepth` — the pass that counts
* `stillOpen` — the lists that a row leaves open
* `Pass.Foretells` — what the reader makes of a row, by what the pass came to

## Main Statements

* `Tree.readAll_agrees_countDepth` — reading comes out as counting foretells
* `Tree.readAll_respelled_resumed` — a lexeme that is lost, and a cursor that has passed an open list
-/

namespace CrateNotation

/-- What counting the open lists comes to. -/
inductive Pass where
  /-- `t` opens a list inside as many lists as there may be. -/
  | tooDeep (t : Token)
  /-- `t` closes a list where none is open. -/
  | unopened (t : Token)
  /-- The row ends inside `depth` lists. -/
  | ended (depth : Nat)

/-- Counts the open lists along a row of tokens that begins inside `depth` of them. -/
def countDepth (limit : Nat) : Nat → List Token → Pass
  | depth, [] => .ended depth
  | depth, t :: ts =>
    match t.kind with
    | .openParen => if depth = limit then .tooDeep t else countDepth limit (depth + 1) ts
    | .closeParen =>
      match depth with
      | 0 => .unopened t
      | depth + 1 => countDepth limit depth ts
    | _ => countDepth limit depth ts

/-- The positions of the lists that are open behind a row of tokens, the innermost first, when the
row begins inside lists at the positions `opened`. -/
def stillOpen (opened : List Position) : List Token → List Position
  | [] => opened
  | t :: ts =>
    match t.kind with
    | .openParen => stillOpen (t.pos :: opened) ts
    | .closeParen => stillOpen opened.tail ts
    | _ => stillOpen opened ts

section Counting

variable {limit depth : Nat} {opened : List Position} {t : Token} {ts : List Token}

theorem countDepth_opens (h : t.role = .opens) (hdepth : depth ≠ limit) :
    countDepth limit depth (t :: ts) = countDepth limit (depth + 1) ts := by
  rw [countDepth.eq_def]
  simp only [Token.kind_of_opens h]
  exact if_neg hdepth

theorem countDepth_tooDeep (h : t.role = .opens) :
    countDepth limit limit (t :: ts) = .tooDeep t := by
  rw [countDepth.eq_def]
  simp only [Token.kind_of_opens h, if_true]

theorem countDepth_closes (h : t.role = .closes) :
    countDepth limit (depth + 1) (t :: ts) = countDepth limit depth ts := by
  rw [countDepth, Token.kind_of_closes h]

theorem countDepth_unopened (h : t.role = .closes) :
    countDepth limit 0 (t :: ts) = .unopened t := by
  rw [countDepth, Token.kind_of_closes h]

theorem countDepth_leaf {l : Leaf} (h : t.role = .leaf l) :
    countDepth limit depth (t :: ts) = countDepth limit depth ts := by
  rw [countDepth.eq_def]
  unfold Token.role at h
  split at h <;> simp_all

theorem stillOpen_opens (h : t.role = .opens) :
    stillOpen opened (t :: ts) = stillOpen (t.pos :: opened) ts := by
  rw [stillOpen, Token.kind_of_opens h]

theorem stillOpen_closes (h : t.role = .closes) :
    stillOpen opened (t :: ts) = stillOpen opened.tail ts := by
  rw [stillOpen, Token.kind_of_closes h]

theorem stillOpen_leaf {l : Leaf} (h : t.role = .leaf l) :
    stillOpen opened (t :: ts) = stillOpen opened ts := by
  rw [stillOpen]
  unfold Token.role at h
  split at h <;> simp_all

end Counting

/-- What the reader makes of a row that closes with `eof`, by what counting came to. The positions
`opened` are those of the lists that are still open at the end. -/
def Pass.Foretells (limit : Nat) (opened : List Position) (eof : Token) :
    Pass → Tree.Outcome (List Tree) → Prop
  | tooDeep t, outcome => ∃ rest, outcome = (.error (.nestingTooDeep limit t.pos), t :: rest)
  | unopened t, outcome => ∃ rest, outcome = (.error (.unexpectedClose t.pos), t :: rest)
  | ended 0, outcome => ∃ trees, outcome = (.ok trees, [eof])
  | ended (n + 1), outcome => ∃ pos outer, opened = pos :: outer ∧ outer.length = n ∧
      outcome = (.error (.unterminatedList pos), [eof])

/-- A tree before the others changes nothing. -/
theorem Pass.Foretells.thenAll {limit : Nat} {opened : List Position} {eof : Token} {p : Pass}
    {ts : List Token} (tree : Tree) (h : p.Foretells limit opened eof (Tree.readAll limit ts)) :
    p.Foretells limit opened eof (Tree.thenAll limit (.ok tree, ts)) := by
  rw [Tree.thenAll]
  cases p with
  | tooDeep t =>
    obtain ⟨rest, h⟩ := h
    rw [h]
    exact ⟨rest, rfl⟩
  | unopened t =>
    obtain ⟨rest, h⟩ := h
    rw [h]
    exact ⟨rest, rfl⟩
  | ended depth =>
    cases depth with
    | zero =>
      obtain ⟨trees, h⟩ := h
      rw [h]
      exact ⟨tree :: trees, rfl⟩
    | succ n =>
      obtain ⟨pos, outer, hopened, hlength, h⟩ := h
      rw [h]
      exact ⟨pos, outer, hopened, hlength, rfl⟩

/-- Where trees are foretold, nothing but the end of input is left behind them. -/
theorem Pass.Foretells.rest_eq {limit : Nat} {opened : List Position} {eof : Token} {p : Pass}
    {outcome : Tree.Outcome (List Tree)} {trees : List Tree}
    (h : p.Foretells limit opened eof outcome) (hok : outcome.1 = .ok trees) :
    outcome = (.ok trees, [eof]) := by
  cases p with
  | tooDeep t =>
    obtain ⟨rest, rfl⟩ := h
    cases hok
  | unopened t =>
    obtain ⟨rest, rfl⟩ := h
    cases hok
  | ended depth =>
    cases depth with
    | zero =>
      obtain ⟨found, rfl⟩ := h
      cases hok
      rfl
    | succ n =>
      obtain ⟨pos, outer, -, -, rfl⟩ := h
      cases hok

namespace Tree

/-- Reads on inside the lists `opened`, the innermost first, and then every further tree. -/
def readAllOn (limit : Int) : List OpenList → List Token → Outcome (List Tree)
  | [], ts => readAll limit ts
  | l :: around, ts => thenAll limit (readOn limit 0 (l :: around) ts)

section Agreement

variable {limit : Nat} {opened : List OpenList} {eof t : Token} {ts body : List Token}

/-- Before the end of input there is a tree to be read or to be finished. -/
theorem readAllOn_eq_thenAll (h : t.isEnd = false) :
    readAllOn limit opened (t :: ts) = thenAll limit (readOn limit 0 opened (t :: ts)) := by
  cases opened with
  | nil => exact readAll_of_not_atEnd h
  | cons l around => rfl

/-- The counter and the reader agree on the rest of a row behind a tree.  To deliver the tree
changes the elements of an open list, but not which lists are open. -/
theorem foretells_deliver {p : Pass} {positions : List Position} {tree : Tree}
    (h : ∀ around : List OpenList, around.length = opened.length →
      around.map OpenList.pos = opened.map OpenList.pos →
        p.Foretells limit positions eof (readAllOn limit around ts)) :
    p.Foretells limit positions eof (thenAll limit (deliver limit 0 tree opened ts)) := by
  cases opened with
  | nil => exact Pass.Foretells.thenAll tree (h [] rfl rfl)
  | cons l around => exact h (l.push tree :: around) rfl rfl

/-- The reader agrees with the counter from within open lists on. -/
theorem readAllOn_agrees (hbody : ∀ t ∈ body, t.isEnd = false) (heof : eof.isEnd = true)
    (hopened : opened.length ≤ limit) :
    (countDepth limit opened.length body).Foretells limit
      (stillOpen (opened.map OpenList.pos) body) eof
      (readAllOn limit opened (body ++ [eof])) := by
  -- The depth is the number of open lists all along, and at each parenthesis both look at it.
  induction body generalizing opened with
  | nil =>
    cases opened with
    | nil => exact ⟨[], readAll_of_atEnd heof⟩
    | cons l around =>
      refine ⟨l.pos, around.map OpenList.pos, rfl, List.length_map _, ?_⟩
      rw [List.nil_append, readAllOn, readOn_ends (Token.role_eq_ends_iff.2 heof)]
      rfl
  | cons t body ih =>
    obtain ⟨ht, hmore⟩ := List.forall_mem_cons.1 hbody
    rw [List.cons_append, readAllOn_eq_thenAll ht]
    cases hrole : t.role with
    | opens =>
      by_cases hlimit : opened.length = limit
      · have hdeep : (limit : Int) < 0 + opened.length + 1 := by omega
        rw [hlimit, countDepth_tooDeep hrole, readOn_tooDeep hrole hdeep]
        exact ⟨body ++ [eof], rfl⟩
      · have hdepth : (0 : Int) + opened.length + 1 ≤ limit := by omega
        rw [countDepth_opens hrole hlimit, stillOpen_opens hrole, readOn_opens hrole hdepth]
        have hlength : (⟨t.pos, []⟩ :: opened : List OpenList).length ≤ limit := by
          rw [List.length_cons]
          omega
        exact ih hmore hlength
    | closes =>
      cases opened with
      | nil =>
        rw [List.length_nil, countDepth_unopened hrole, readOn_unopened hrole]
        exact ⟨body ++ [eof], rfl⟩
      | cons l opened =>
        rw [List.length_cons] at hopened
        rw [List.length_cons, countDepth_closes hrole, stillOpen_closes hrole,
          readOn_closes hrole]
        apply foretells_deliver
        intro around hlength hpositions
        have haround : around.length ≤ limit := by omega
        rw [List.map_cons, List.tail_cons, ← hpositions, ← hlength]
        exact ih hmore haround
    | leaf l =>
      rw [countDepth_leaf hrole, stillOpen_leaf hrole, readOn_leaf hrole]
      apply foretells_deliver
      intro around hlength hpositions
      have haround : around.length ≤ limit := by omega
      rw [← hpositions, ← hlength]
      exact ih hmore haround
    | ends =>
      rw [Token.role_eq_ends_iff, ht] at hrole
      cases hrole

/-- Well-spelled tokens come back from their traces with their own lexemes. -/
theorem map_trace_of_wellSpelled (h : ∀ t ∈ body, t.WellSpelled) :
    (body.map Token.trace).map (fun r => (r.kind, r.lexeme)) =
      body.map fun t => (t.kind, t.lexeme) := by
  rw [List.map_map]
  apply List.map_congr_left
  intro t ht
  have hlexeme : t.trace.lexeme = t.lexeme := Token.lexeme_trace_eq_iff.2 (h t ht)
  exact congrArg (Prod.mk t.kind) hlexeme

end Agreement

/-- Counting the open lists of a row foretells what reading it comes to.  Trees that are read
flatten to the row, kind by kind and position by position, none of them nests deeper than the limit,
and with a higher limit the same trees are read.  A parenthesis or `nil` comes back with the lexeme of
its kind, so the lexemes are those of the row if it is well spelled, as it is if it is made of a text.
The row is what lies ahead of a cursor, whatever the cursor has passed. -/
theorem readAll_agrees_countDepth
    (limit : Nat) (body : List Token) (eof : Token)
    (hbody : ∀ t ∈ body, t.isEnd = false) (heof : eof.isEnd = true) :
    (countDepth limit 0 body).Foretells limit (stillOpen [] body) eof
        (readAll limit (body ++ [eof])) ∧
      (∀ trees, (readAll limit (body ++ [eof])).1 = .ok trees →
        trees.flatMap traces = body.map Token.trace ∧
        ((∀ t ∈ body, t.WellSpelled) ∨ (∃ text, Token.ofText text = .ok (body ++ [eof])) →
          (trees.flatMap traces).map (fun r => (r.kind, r.lexeme)) =
            body.map fun t => (t.kind, t.lexeme)) ∧
        (∀ tree ∈ trees, tree.nesting ≤ limit) ∧
        ∀ higher : Nat, limit ≤ higher →
          readAll higher (body ++ [eof]) = (.ok trees, [eof])) ∧
      ∀ (options : ReadOptions) (c : Cursor), options.maxDepth = limit →
        c.ahead = body ++ [eof] →
          (c.perform options .all).1 = .trees <$> (readAll limit (body ++ [eof])).1 ∧
          (c.perform options .all).2.ahead = (readAll limit (body ++ [eof])).2 := by
  have hagrees : (countDepth limit 0 body).Foretells limit (stillOpen [] body) eof
      (readAll limit (body ++ [eof])) :=
    @readAllOn_agrees limit [] eof body hbody heof (Nat.zero_le limit)
  refine ⟨hagrees, ?_, ?_⟩
  · intro trees hok
    obtain ⟨consumed, hconsumed, htraces, hfits⟩ :=
      traces_of_readAll (Int.natCast_nonneg limit) (hagrees.rest_eq hok)
    obtain rfl : body = consumed := List.append_cancel_right hconsumed
    refine ⟨htraces.symm, ?_, ?_, ?_⟩
    · intro hrow
      have hspelled : ∀ t ∈ body, t.WellSpelled := by
        rcases hrow with hspelled | ⟨text, htext⟩
        · exact hspelled
        · intro t ht
          exact wellSpelled_of_mem_ofText htext (List.mem_append_left _ ht)
      rw [← htraces, map_trace_of_wellSpelled hspelled]
    · intro tree htree
      exact Int.ofNat_le.1 (hfits tree htree).2
    · -- The row leaves the traces of the trees, and that is all that reading them again takes.
      intro higher hle
      have hhigher : ∀ tree ∈ trees, tree.FitsIn higher := by
        intro tree htree
        obtain ⟨hcomplete, hnesting⟩ := hfits tree htree
        exact ⟨hcomplete, Int.le_trans hnesting (Int.ofNat_le.2 hle)⟩
      exact readAll_of_traces hhigher htraces heof
  · rintro options ⟨passed, ahead, hclosed⟩ rfl rfl
    exact ⟨rfl, rfl⟩

/-- The row `(a (nil)` is read within two levels up to its end, and blamed on the list that is still
open there, which is not the one that was opened last.  With one more parenthesis the row is read as a
list in a list, from which it comes back lexeme by lexeme, also where other tokens stand before it. -/
theorem readAll_agrees_countDepth_nested :
    let row : List Token := [⟨.openParen, "(", ⟨0, 1, 1⟩⟩, ⟨.symbol, "a", ⟨1, 1, 2⟩⟩,
      ⟨.openParen, "(", ⟨3, 1, 4⟩⟩, ⟨.nil, "nil", ⟨4, 1, 5⟩⟩, ⟨.closeParen, ")", ⟨7, 1, 8⟩⟩]
    let closed : List Token := row ++ [⟨.closeParen, ")", ⟨8, 1, 9⟩⟩]
    let eof : Token := ⟨.endOfInput, "", ⟨9, 1, 10⟩⟩
    let tree : Tree := list [leaf (.symbol "a") ⟨1, 1, 2⟩,
      list [leaf .nil ⟨4, 1, 5⟩] ⟨3, 1, 4⟩] ⟨0, 1, 1⟩
    ((∀ t ∈ closed, t.isEnd = false) ∧ eof.isEnd = true ∧ ∀ t ∈ closed, t.WellSpelled) ∧
      readAll (2 : Nat) (row ++ [eof]) = (.error (.unterminatedList ⟨0, 1, 1⟩), [eof]) ∧
      readAll (2 : Nat) (closed ++ [eof]) = (.ok [tree], [eof]) ∧
      tree.nesting = 2 ∧
      tree.traces.map (fun r => (r.kind, r.lexeme)) = closed.map (fun t => (t.kind, t.lexeme)) ∧
      readAll (7 : Nat) (closed ++ [eof]) = (.ok [tree], [eof]) ∧
      ∃ ahead_closed, (Cursor.perform { maxDepth := 2 } .all
        ⟨3, closed ++ [eof], ahead_closed⟩).1 = .ok (.trees [tree]) := by
  intro row closed eof tree
  have hclosed : ∀ t ∈ closed, t.isEnd = false := by decide
  have hrow : ∀ t ∈ row, t.isEnd = false := fun t ht => hclosed t (List.mem_append_left _ ht)
  have heof : eof.isEnd = true := by decide
  have hspelled : ∀ t ∈ closed, t.WellSpelled := by decide
  obtain ⟨pos, outer, hopen, -, hread⟩ := (readAll_agrees_countDepth 2 row eof hrow heof).1
  cases hopen
  obtain ⟨⟨trees, hall⟩, hmore, hcursor⟩ := readAll_agrees_countDepth 2 closed eof hclosed heof
  obtain rfl : trees = [tree] := by
    have htrees : (readAll (2 : Nat) (closed ++ [eof])).1 = .ok [tree] := by decide +kernel
    rw [hall] at htrees
    exact Except.ok.inj htrees
  obtain ⟨-, hlexemes, hnesting, hhigher⟩ := hmore [tree] (by rw [hall])
  refine ⟨⟨hclosed, heof, hspelled⟩, hread, hall, rfl, ?_, hhigher 7 (by decide), by decide, ?_⟩
  · rw [← hlexemes (.inl hspelled), List.flatMap_singleton]
  · rw [(hcursor { maxDepth := 2 } ⟨3, closed ++ [eof], by decide⟩ rfl rfl).1, hall]
    rfl

/-- Neither the spelling nor the place of the cursor can be left out.  A `nil` with another lexeme than
that of its kind is read, but the lexeme does not come back.  And a cursor that has been asked for all
trees of `(` has passed the open list, so that it finds no trees and no error when it is asked again,
although a list is open at the end of the tokens. -/
theorem readAll_respelled_resumed :
    let respelled : Token := ⟨.nil, "zzz", .start⟩
    let opening : Token := ⟨.openParen, "(", .start⟩
    let eof : Token := ⟨.endOfInput, "", ⟨1, 1, 2⟩⟩
    (countDepth 256 0 [respelled] = .ended 0 ∧
      (readAll 256 [respelled, eof]).1 = .ok [leaf .nil .start] ∧
      ([leaf .nil .start].flatMap traces).map (fun r => (r.kind, r.lexeme)) ≠
        [respelled].map fun t => (t.kind, t.lexeme)) ∧
    Token.ofText "(" = .ok [opening, eof] ∧
      countDepth 256 0 [opening] = .ended 1 ∧
      ∃ c, Cursor.ofTokens? [opening, eof] = some c ∧
        (c.performAll {} [.all, .all]).map Prod.fst =
          [.error (.unterminatedList .start), .ok (.trees [])] := by
  intro respelled opening eof
  have hread : readAll (256 : Nat) [opening, eof] = (.error (.unterminatedList .start), [eof]) := by
    decide +kernel
  have hagain : readAll (256 : Nat) [eof] = (.ok [], [eof]) := readAll_of_atEnd rfl
  refine ⟨⟨rfl, by decide +kernel, by decide⟩, by decide +kernel, rfl, ⟨0, [opening, eof], by decide⟩,
    rfl, ?_⟩
  show [Reply.trees <$> (readAll (256 : Nat) [opening, eof]).1,
    Reply.trees <$> (readAll (256 : Nat) (readAll (256 : Nat) [opening, eof]).2).1] = _
  rw [hread, hagain]
  rfl

end Tree

end CrateNotation
