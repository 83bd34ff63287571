import CrateNotation.Proofs.Token.Layout
import CrateNotation.Proofs.Tree.Blame
import CrateNotation.Tree.Cursor

/-!
# Ways of reading a text

All trees of a text can be read, or only the first, and then one may require that nothing follows
it.  Or a cursor on the tokens is asked for the first tree again and again, until it is at the end.

These ways agree, because a tree is read from the tokens that it takes, whatever stands behind them.
So the first tree is the same for all of them, an error in front of it or in it is the same, and an
error behind it is one that only those meet who go on.

## Main Definitions

* `Tree.Begins` — a tree is read from the first tokens of a text
* `Cursor.Collects` — what a cursor comes to that is asked for trees up to the end

## Main Statements

* `Cursor.collects_iff` — a cursor collects what is read at once
* `Tree.readings_agree` — how the ways of reading a text agree
-/

namespace CrateNotation

/-! ## Reading a row of tokens -/

namespace Tree

variable {options : ReadOptions} {limit : Int} {ts rest : List Token} {tree : Tree} {e : ParseError}

theorem readFirst_of_atEnd (h : atEnd ts = true) :
    readFirst options ts = (.error .emptyInput, ts) := by
  rw [readFirst, if_pos h]

/-- If the first tree need not be the last, it is read like any other. -/
theorem readFirst_of_not_requireEnd (hoption : options.requireEnd = false) (h : atEnd ts = false) :
    readFirst options ts = read options.maxDepth 0 ts := by
  rw [readFirst, if_neg (by simp [h])]
  split
  next hread => rw [hoption, Bool.false_and, if_neg (by simp), hread]
  next => rfl

/-- If the first tree must be the last, the token behind it is refused. -/
theorem readFirst_of_requireEnd {t : Token} (hoption : options.requireEnd = true)
    (h : read options.maxDepth 0 ts = (.ok tree, t :: rest)) :
    (readFirst options ts).1 =
      if t.isEnd = true then .ok tree else .error (.unexpectedToken t.lexeme t.pos) := by
  rw [readFirst, if_neg (by simp [atEnd_of_read h]), h]
  cases hend : t.isEnd <;> simp [hoption, hend]

/-- An error in the first tree is met by all who read it. -/
theorem readFirst_of_error (hend : atEnd ts = false)
    (h : read options.maxDepth 0 ts = (.error e, rest)) : (readFirst options ts).1 = .error e := by
  rw [readFirst, if_neg (by simp [hend]), h]

/-- A closed row is at its end, or its first tree fails, or there is a token behind the tree. -/
theorem read_cases (limit : Int) (h : Closed ts) :
    atEnd ts = true ∨
      (∃ e rest, atEnd ts = false ∧ read limit 0 ts = (.error e, rest)) ∨
      ∃ tree t rest, read limit 0 ts = (.ok tree, t :: rest) := by
  cases hend : atEnd ts with
  | true => exact .inl rfl
  | false =>
    right
    have hclosed := closed_read limit 0 h
    rcases hread : read limit 0 ts with ⟨e | tree, _ | ⟨t, rest⟩⟩
    · exact .inl ⟨e, _, rfl, rfl⟩
    · exact .inl ⟨e, _, rfl, rfl⟩
    · rw [hread] at hclosed
      exact absurd rfl hclosed.ne_nil
    · exact .inr ⟨tree, t, rest, rfl⟩

/-- Trees are read one after the other. -/
theorem readAll_eq_ok_cons {trees : List Tree} (hclosed : Closed ts)
    (h : (readAll limit ts).1 = .ok (tree :: trees)) :
    ∃ t rest, read limit 0 ts = (.ok tree, t :: rest) ∧
      (readAll limit (t :: rest)).1 = .ok trees := by
  obtain hend | ⟨e, rest, hend, hread⟩ | ⟨first, t, rest, hread⟩ := read_cases limit hclosed
  · rw [readAll_of_atEnd hend] at h
    cases h
  · rw [readAll_of_error hend hread] at h
    cases h
  · rw [readAll_of_read hread] at h
    obtain ⟨more, hmore, heq⟩ := exists_of_map_eq_ok h
    obtain ⟨rfl, rfl⟩ := List.cons.inj heq
    exact ⟨t, rest, hread, hmore⟩

/-- There are no trees in a row only if it is at its end. -/
theorem readAll_eq_ok_nil_iff (hclosed : Closed ts) :
    (readAll limit ts).1 = .ok [] ↔ atEnd ts = true := by
  constructor
  · intro h
    obtain hend | ⟨e, rest, hend, hread⟩ | ⟨first, t, rest, hread⟩ := read_cases limit hclosed
    · exact hend
    · rw [readAll_of_error hend hread] at h
      cases h
    · rw [readAll_of_read hread] at h
      obtain ⟨more, -, heq⟩ := exists_of_map_eq_ok h
      cases heq
  · intro h
    rw [readAll_of_atEnd h]

/-- The first tree of a row is the last exactly if it is all that is read. -/
theorem readFirst_eq_ok_iff (hoption : options.requireEnd = true) (hclosed : Closed ts) :
    (readFirst options ts).1 = .ok tree ↔ (readAll options.maxDepth ts).1 = .ok [tree] := by
  obtain hend | ⟨e, rest, hend, hread⟩ | ⟨first, t, rest, hread⟩ :=
    read_cases options.maxDepth hclosed
  · rw [readFirst_of_atEnd hend, readAll_of_atEnd hend]
    constructor <;> nofun
  · rw [readFirst_of_error hend hread, readAll_of_error hend hread]
    constructor <;> nofun
  · have hmore : Closed (t :: rest) := by
      have h := closed_read options.maxDepth 0 hclosed
      rwa [hread] at h
    rw [readFirst_of_requireEnd hoption hread, readAll_of_read hread]
    split
    next ht =>
      rw [(readAll_eq_ok_nil_iff hmore).2 ht]
      constructor
      · intro h
        rw [Except.ok.inj h]
        rfl
      · intro h
        obtain ⟨rfl, -⟩ := List.cons.inj (Except.ok.inj h)
        rfl
    next ht =>
      constructor
      · nofun
      · intro h
        -- A row that is not at its end has a second tree, or an error.
        obtain ⟨trees, hall, heq⟩ := exists_of_map_eq_ok h
        obtain ⟨-, rfl⟩ := List.cons.inj heq
        exact absurd ((readAll_eq_ok_nil_iff hmore).1 hall) ht

/-- If there is a tree behind the first, the token with which it begins is refused. -/
theorem readFirst_of_two {next : Tree} {more : List Tree} (hoption : options.requireEnd = true)
    (hclosed : Closed ts) (h : (readAll options.maxDepth ts).1 = .ok (tree :: next :: more)) :
    ∃ t second rest, read options.maxDepth 0 ts = (.ok tree, t :: second ++ rest) ∧
      (t :: second).map Token.trace = next.traces ∧
      (readFirst options ts).1 = .error (.unexpectedToken t.lexeme t.pos) := by
  obtain ⟨t, rest, hread, hmore⟩ := readAll_eq_ok_cons hclosed h
  have hcloses : Closed (t :: rest) := by
    have hrest := closed_read options.maxDepth 0 hclosed
    rwa [hread] at hrest
  obtain ⟨t', rest', hnext, -⟩ := readAll_eq_ok_cons hcloses hmore
  have hend : t.isEnd = false := atEnd_of_read hnext
  obtain ⟨consumed, hconsumed, htraces, -⟩ := traces_of_read (Int.natCast_nonneg _) hnext
  cases consumed with
  | nil =>
    -- A tree takes at least one token.
    have hlt := length_lt_of_read hnext
    rw [hconsumed] at hlt
    exact absurd hlt (Nat.lt_irrefl _)
  | cons t'' second =>
    obtain ⟨rfl, rfl⟩ := List.cons.inj hconsumed
    refine ⟨t, second, t' :: rest', hread, htraces, ?_⟩
    rw [readFirst_of_requireEnd hoption hread, hend]
    rfl

/-- An error in a row is met in the first tree, or this is read and the error is met behind it. -/
theorem readAll_eq_error (hclosed : Closed ts) (h : (readAll limit ts).1 = .error e) :
    (∃ rest, atEnd ts = false ∧ read limit 0 ts = (.error e, rest)) ∨
      ∃ tree t rest, read limit 0 ts = (.ok tree, t :: rest) ∧ t.isEnd = false ∧
        (readAll limit (t :: rest)).1 = .error e := by
  obtain hend | ⟨e', rest, hend, hread⟩ | ⟨tree, t, rest, hread⟩ := read_cases limit hclosed
  · rw [readAll_of_atEnd hend] at h
    cases h
  · rw [readAll_of_error hend hread] at h
    obtain rfl := Except.error.inj h
    exact .inl ⟨rest, hend, hread⟩
  · right
    rw [readAll_of_read hread] at h
    cases hmore : (readAll limit (t :: rest)).1 with
    | ok trees =>
      rw [hmore] at h
      cases h
    | error e' =>
      rw [hmore] at h
      obtain rfl := Except.error.inj h
      refine ⟨tree, t, rest, hread, ?_, hmore⟩
      by_contra hend
      have hrow : atEnd (t :: rest) = true := eq_true_of_ne_false hend
      rw [readAll_of_atEnd hrow] at hmore
      cases hmore

end Tree

/-! ## Asking again and again -/

namespace Cursor

open CrateNotation.Tree

variable {options : ReadOptions} {c : Cursor} {outcome : Except ParseError (List Tree)}

/-- `c.Collects options outcome` says that the cursor `c`, if it is asked for the first tree again
and again until it is at the end, gives the trees of the outcome, or ends with its error. -/
inductive Collects (options : ReadOptions) : Cursor → Except ParseError (List Tree) → Prop where
  | done {c : Cursor} (atEnd : c.atEnd = true) : Collects options c (.ok [])
  | failed {c c' : Cursor} {e : ParseError} (atEnd : c.atEnd = false)
    (answer : c.perform options .first = (.error e, c')) : Collects options c (.error e)
  | tree {c c' : Cursor} {t : Tree} {outcome : Except ParseError (List Tree)}
    (atEnd : c.atEnd = false) (answer : c.perform options .first = (.ok (.tree t), c'))
    (further : Collects options c' outcome) : Collects options c ((t :: ·) <$> outcome)

/-- A cursor is at the end if its tokens are. -/
theorem atEnd_eq (c : Cursor) : c.atEnd = CrateNotation.atEnd c.ahead := by
  obtain ⟨passed, ahead, closed⟩ := c
  cases ahead with
  | nil => exact absurd rfl closed.ne_nil
  | cons t ts => rfl

/-- A cursor that is asked for the first tree reads one and stands behind it. -/
theorem perform_first (hoption : options.requireEnd = false) (hend : c.atEnd = false) :
    (c.perform options .first).1 = Reply.tree <$> (read options.maxDepth 0 c.ahead).1 ∧
      (c.perform options .first).2.ahead = (read options.maxDepth 0 c.ahead).2 := by
  rw [atEnd_eq] at hend
  rw [← readFirst_of_not_requireEnd hoption hend]
  exact ⟨rfl, rfl⟩

/-- What a cursor collects is read at once. -/
theorem Collects.eq_readAll (hoption : options.requireEnd = false)
    (h : c.Collects options outcome) :
    outcome = (readAll options.maxDepth c.ahead).1 := by
  induction h with
  | @done c atEnd =>
    rw [atEnd_eq] at atEnd
    rw [readAll_of_atEnd atEnd]
  | @failed c c' e atEnd answer =>
    obtain ⟨hreply, -⟩ := perform_first hoption atEnd
    rw [answer] at hreply
    rw [atEnd_eq] at atEnd
    rcases hread : read options.maxDepth 0 c.ahead with ⟨e' | tree, rest⟩
    · rw [hread] at hreply
      obtain rfl := Except.error.inj hreply
      rw [readAll_of_error atEnd hread]
    · rw [hread] at hreply
      cases hreply
  | @tree c c' t outcome atEnd answer _ ih =>
    obtain ⟨hreply, hahead⟩ := perform_first hoption atEnd
    rw [answer] at hreply hahead
    rcases hread : read options.maxDepth 0 c.ahead with ⟨e' | tree, rest⟩
    · rw [hread] at hreply
      cases hreply
    · rw [hread] at hreply hahead
      obtain rfl := Reply.tree.inj (Except.ok.inj hreply)
      obtain rfl : c'.ahead = rest := hahead
      rw [readAll_of_read hread, ih]

/-- Every cursor collects something, namely what is read at once. -/
theorem collects_readAll (hoption : options.requireEnd = false) (c : Cursor) :
    c.Collects options (readAll options.maxDepth c.ahead).1 := by
  generalize hts : c.ahead = ts
  induction ts using row_induct options.maxDepth generalizing c with
  | done ts hend =>
    rw [readAll_of_atEnd hend]
    rw [← hts, ← atEnd_eq] at hend
    exact .done hend
  | failed ts e rest hend hread =>
    rw [readAll_of_error hend hread]
    rw [← hts, ← atEnd_eq] at hend
    obtain ⟨hreply, -⟩ := perform_first hoption hend
    rw [hts, hread] at hreply
    exact .failed hend (Prod.ext hreply rfl)
  | tree ts tree rest hread ih =>
    have hend := atEnd_of_read hread
    rw [readAll_of_read hread]
    rw [← hts, ← atEnd_eq] at hend
    obtain ⟨hreply, hahead⟩ := perform_first hoption hend
    rw [hts, hread] at hreply hahead
    exact .tree hend (Prod.ext hreply rfl) (ih _ hahead)

/-- A cursor that is asked again and again collects what is read at once. -/
theorem collects_iff (hoption : options.requireEnd = false) :
    c.Collects options outcome ↔ outcome = (readAll options.maxDepth c.ahead).1 := by
  constructor
  · exact Collects.eq_readAll hoption
  · rintro rfl
    exact collects_readAll hoption c

end Cursor

/-! ## Reading a text -/

namespace Tree

/-- `t.Begins text rest` says that the tokens of the text are those that the tree `t` is read from,
and behind them `rest`. -/
def Begins (text : String) (t : Tree) (rest : List Token) : Prop :=
  ∃ first, Token.ofText text = .ok (first ++ rest) ∧ first.map Token.trace = t.traces

/-- The tokens of a text close with the end of input. -/
theorem closed_of_ofText {text : String} {tokens : List Token}
    (h : Token.ofText text = .ok tokens) : Closed tokens := by
  obtain ⟨pieces, rfl, -, -⟩ := exists_laid_of_ofText h
  exact ⟨_, List.getLast?_concat, rfl⟩

/-- What is read from the beginning of the tokens begins the text. -/
theorem begins_of_read {options : ReadOptions} {text : String} {tokens rest : List Token} {t : Tree}
    (htokens : Token.ofText text = .ok tokens)
    (h : read options.maxDepth 0 tokens = (.ok t, rest)) : t.Begins text rest := by
  obtain ⟨first, rfl, htraces, -⟩ := traces_of_read (Int.natCast_nonneg _) h
  exact ⟨first, htokens, htraces⟩

/-- The ways of reading a text agree.

The first tree of a text is read as the last exactly if it is all that is read.  If there are no
trees, then there is no first one.  Otherwise it is the first of all, and if there is a second, then
the token with which the second begins is refused.  An error of the lexer is met in every way.
Another error is met in every way, or it is one behind the first tree.  Then this tree is read, and
the token behind it refused.  A cursor that is asked again and again comes to what is read at
once. -/
theorem readings_agree (options : ReadOptions) (text : String) :
    let first := ofText { options with requireEnd := false } text
    let only := ofText { options with requireEnd := true } text
    let all := allOfText options text
    (∀ t, only = .ok t ↔ all = .ok [t]) ∧
    (all = .ok [] → first = .error .emptyInput ∧ only = .error .emptyInput) ∧
    (∀ t more, all = .ok (t :: more) → first = .ok t) ∧
    (∀ t next more, all = .ok (t :: next :: more) →
      ∃ token second rest, t.Begins text (token :: second ++ rest) ∧
        (token :: second).map Token.trace = next.traces ∧
        only = .error (.unexpectedToken token.lexeme token.pos)) ∧
    (∀ e, all = .error (.lexical e) →
      first = .error (.lexical e) ∧ only = .error (.lexical e)) ∧
    (∀ e, all = .error e →
      (first = .error e ∧ only = .error e) ∨
      ∃ t token rest, t.Begins text (token :: rest) ∧
        (readAll options.maxDepth (token :: rest)).1 = .error e ∧ first = .ok t ∧
        only = .error (.unexpectedToken token.lexeme token.pos)) ∧
    (∀ tokens, Token.ofText text = .ok tokens →
      ∃ c, Cursor.ofTokens? tokens = some c ∧
        ∀ outcome, c.Collects { options with requireEnd := false } outcome ↔ outcome = all) := by
  intro first only all
  cases htokens : Token.ofText text with
  | error e =>
    have hfirst : first = .error (.lexical e) := ofText_of_lexError htokens
    have honly : only = .error (.lexical e) := ofText_of_lexError htokens
    have hall : all = .error (.lexical e) := allOfText_of_lexError htokens
    rw [hfirst, honly, hall]
    refine ⟨fun t => ⟨nofun, nofun⟩, nofun, nofun, nofun, ?_, ?_, nofun⟩
    · intro e' he
      rw [Except.error.inj he]
      exact ⟨rfl, rfl⟩
    · intro e' he
      rw [Except.error.inj he]
      exact .inl ⟨rfl, rfl⟩
  | ok tokens =>
    have hclosed : Closed tokens := closed_of_ofText htokens
    have hfirst : first = (readFirst { options with requireEnd := false } tokens).1 :=
      ofText_of_tokens htokens
    have honly : only = (readFirst { options with requireEnd := true } tokens).1 :=
      ofText_of_tokens htokens
    have hall : all = (readAll options.maxDepth tokens).1 := allOfText_of_tokens htokens
    rw [hfirst, honly, hall]
    refine ⟨fun t => readFirst_eq_ok_iff rfl hclosed, ?_, ?_, ?_, ?_, ?_, ?_⟩
    · intro h
      have hend := (readAll_eq_ok_nil_iff hclosed).1 h
      rw [readFirst_of_atEnd hend, readFirst_of_atEnd hend]
      exact ⟨rfl, rfl⟩
    · intro t more h
      obtain ⟨t', rest, hread, -⟩ := readAll_eq_ok_cons hclosed h
      rw [readFirst_of_not_requireEnd rfl (atEnd_of_read hread), hread]
    · intro t next more h
      obtain ⟨token, second, rest, hread, htraces, hrefused⟩ :=
        @readFirst_of_two { options with requireEnd := true } _ _ _ _ rfl hclosed h
      exact ⟨token, second, rest, begins_of_read htokens hread, htraces, hrefused⟩
    · intro e h
      exact (blamesOneOf_of_readAll (Int.natCast_nonneg _) (List.Subset.refl tokens) h).elim
    · intro e h
      obtain ⟨rest, hend, hread⟩ | ⟨t, token, rest, hread, hend, hmore⟩ :=
        readAll_eq_error hclosed h
      · exact .inl ⟨readFirst_of_error hend hread, readFirst_of_error hend hread⟩
      · refine .inr ⟨t, token, rest, begins_of_read htokens hread, hmore, ?_, ?_⟩
        · rw [readFirst_of_not_requireEnd rfl (atEnd_of_read hread), hread]
        · rw [@readFirst_of_requireEnd { options with requireEnd := true } _ _ _ _ rfl hread, hend]
          rfl
    · rintro tokens' ⟨⟩
      exact ⟨⟨0, tokens, hclosed⟩, dif_pos hclosed, fun outcome => Cursor.collects_iff rfl⟩

/-- Of two trees the first is read, and the second is refused if the first must be the last.  That a
string is not closed is found in every way, although it stands behind the first tree.  A parenthesis
that closes nothing is met in every way, or behind the first tree. -/
theorem readings_agree_behind_first :
    let a : Tree := leaf (.symbol "a") ⟨0, 1, 1⟩
    let b : Tree := list [leaf (.symbol "b") ⟨3, 1, 4⟩] ⟨2, 1, 3⟩
    let opened : ParseError := .lexical (.unterminatedString ⟨2, 1, 3⟩)
    let unopened : ParseError := .unexpectedClose ⟨2, 1, 3⟩
    (allOfText {} "a (b)" = .ok [a, b] ∧ ofText {} "a (b)" = .ok a ∧
      ∃ token second rest, a.Begins "a (b)" (token :: second ++ rest) ∧
        (token :: second).map Token.trace = b.traces ∧
        ofText { requireEnd := true } "a (b)" =
          .error (.unexpectedToken token.lexeme token.pos)) ∧
    (allOfText {} "a \"b" = .error opened ∧ ofText {} "a \"b" = .error opened ∧
      ofText { requireEnd := true } "a \"b" = .error opened) ∧
    (allOfText {} "a )" = .error unopened ∧
      ((ofText {} "a )" = .error unopened ∧
          ofText { requireEnd := true } "a )" = .error unopened) ∨
        ∃ t token rest, t.Begins "a )" (token :: rest) ∧
          (readAll 256 (token :: rest)).1 = .error unopened ∧ ofText {} "a )" = .ok t ∧
          ofText { requireEnd := true } "a )" =
            .error (.unexpectedToken token.lexeme token.pos))) ∧
    (∃ tokens c, Token.ofText "a )" = .ok tokens ∧ Cursor.ofTokens? tokens = some c ∧
      ∀ outcome, c.Collects {} outcome ↔ outcome = allOfText {} "a )") := by
  intro a b opened unopened
  have hboth : allOfText {} "a (b)" = .ok [a, b] := by decide +kernel
  have hopened : allOfText {} "a \"b" = .error opened := by decide +kernel
  have hunopened : allOfText {} "a )" = .error unopened := by decide +kernel
  obtain ⟨-, -, hfirst, hsecond, -⟩ := readings_agree {} "a (b)"
  obtain ⟨-, -, -, -, hlexical, -⟩ := readings_agree {} "a \"b"
  obtain ⟨-, -, -, -, -, herror, hcursor⟩ := readings_agree {} "a )"
  have htokens : Token.ofText "a )" = .ok [⟨.symbol, "a", ⟨0, 1, 1⟩⟩,
      ⟨.closeParen, ")", ⟨2, 1, 3⟩⟩, ⟨.endOfInput, "", ⟨3, 1, 4⟩⟩] := by decide +kernel
  obtain ⟨c, hc, hcollects⟩ := hcursor _ htokens
  exact ⟨⟨hboth, hfirst a [b] hboth, hsecond a b [] hboth⟩, ⟨hopened, hlexical _ hopened⟩,
    ⟨hunopened, herror unopened hunopened⟩, _, c, htokens, hc, hcollects⟩

end Tree

end CrateNotation
