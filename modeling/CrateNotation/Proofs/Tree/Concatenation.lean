import CrateNotation.Proofs.Token.Concatenation
import CrateNotation.Proofs.Tree.Readings

/-!
# Trees of texts below each other

The trees of a text below another are read behind those of the upper text.  The upper text has been
read up to the end of its last tree, so nothing is open when the lower one begins.  From there on a
reader does what it does in the lower text alone, since it looks at no position: it passes them on.

## Main Definitions

* `relocateRead` — what reading comes to, at other places

## Main Statements

* `Tree.readAll_relocate`, `Tree.readFirst_relocate` — reading does the same at other places
* `Tree.readAll_append` — trees are read from the tokens that they take, whatever follows
* `Tree.reading_composes` — tokens and trees of a text below another
-/

namespace CrateNotation

variable {φ : Position → Position}

@[simp]
theorem Token.isEnd_relocate (t : Token) : (t.relocate φ).isEnd = t.isEnd := rfl

@[simp]
theorem Token.role_relocate (t : Token) : (t.relocate φ).role = t.role := rfl

/-- What reading comes to, at other places: what `g` makes of it, or the same error, with the tokens
that are left. -/
def relocateRead {α : Type} (φ : Position → Position) (g : α → α) :
    Except ParseError α → Except ParseError α
  | .ok a => .ok (g a)
  | .error e => .error (e.relocate φ)

namespace Tree

variable {limit depth : Int} {opened : List OpenList} {ts tokens rest : List Token}

/-! ## Reading at other places -/

/-- The same open list at another place. -/
def OpenList.relocate (φ : Position → Position) (l : OpenList) : OpenList :=
  ⟨φ l.pos, l.elements.map (Tree.relocate φ)⟩

theorem OpenList.push_relocate (l : OpenList) (t : Tree) :
    (l.relocate φ).push (t.relocate φ) = (l.push t).relocate φ := rfl

theorem OpenList.close_relocate (l : OpenList) : (l.relocate φ).close = l.close.relocate φ := by
  rw [close, close, Tree.relocate, relocateAll_eq_map, List.map_reverse]
  rfl

theorem unfinished_relocate (opened : List OpenList) :
    unfinished (opened.map (OpenList.relocate φ)) = (unfinished opened).relocate φ := by
  cases opened <;> rfl

/-- What reading a tree comes to, at other places. -/
def relocateOutcome (φ : Position → Position) (outcome : Outcome Tree) : Outcome Tree :=
  (relocateRead φ (relocate φ) outcome.1, outcome.2.map (Token.relocate φ))

/-- A tree that has been read is put where it belongs, at other places. -/
theorem deliver_relocate (tree : Tree)
    (ih : ∀ opened : List OpenList,
      readOn limit depth (opened.map (OpenList.relocate φ)) (ts.map (Token.relocate φ)) =
        relocateOutcome φ (readOn limit depth opened ts)) :
    deliver limit depth (tree.relocate φ) (opened.map (OpenList.relocate φ))
        (ts.map (Token.relocate φ)) =
      relocateOutcome φ (deliver limit depth tree opened ts) := by
  cases opened with
  | nil => rfl
  | cons around opened =>
    rw [deliver, ← ih, List.map_cons, List.map_cons, deliver, OpenList.push_relocate]

/-- A reader does the same at other places. -/
theorem readOn_relocate (opened : List OpenList) (ts : List Token) :
    readOn limit depth (opened.map (OpenList.relocate φ)) (ts.map (Token.relocate φ)) =
      relocateOutcome φ (readOn limit depth opened ts) := by
  induction ts generalizing opened with
  | nil =>
    rw [List.map_nil, readOn, readOn, unfinished_relocate]
    rfl
  | cons t ts ih =>
    rw [List.map_cons]
    cases hrole : t.role with
    | opens =>
      have hmoved : (t.relocate φ).role = .opens := hrole
      by_cases hdepth : depth + opened.length + 1 ≤ limit
      · have hdepth' : depth + (opened.map (OpenList.relocate φ)).length + 1 ≤ limit := by
          rwa [List.length_map]
        rw [readOn_opens hrole hdepth, readOn_opens hmoved hdepth', ← ih]
        rfl
      · have hdepth' : limit < depth + (opened.map (OpenList.relocate φ)).length + 1 := by
          rw [List.length_map]
          exact Int.not_le.1 hdepth
        rw [readOn_tooDeep hrole (Int.not_le.1 hdepth), readOn_tooDeep hmoved hdepth']
        rfl
    | closes =>
      have hmoved : (t.relocate φ).role = .closes := hrole
      cases opened with
      | nil =>
        rw [List.map_nil, readOn_unopened hrole, readOn_unopened hmoved]
        rfl
      | cons l opened =>
        rw [List.map_cons, readOn_closes hrole, readOn_closes hmoved, OpenList.close_relocate]
        exact deliver_relocate l.close ih
    | leaf l =>
      have hmoved : (t.relocate φ).role = .leaf l := hrole
      rw [readOn_leaf hrole, readOn_leaf hmoved]
      exact deliver_relocate (leaf l t.pos) ih
    | ends =>
      have hmoved : (t.relocate φ).role = .ends := hrole
      rw [readOn_ends hrole, readOn_ends hmoved, unfinished_relocate]
      rfl

theorem read_relocate (ts : List Token) :
    read limit depth (ts.map (Token.relocate φ)) = relocateOutcome φ (read limit depth ts) :=
  readOn_relocate [] ts

theorem atEnd_relocate (ts : List Token) : atEnd (ts.map (Token.relocate φ)) = atEnd ts := by
  cases ts <;> rfl

/-- All trees are read at other places as they are here. -/
theorem readAll_relocate (ts : List Token) :
    (readAll limit (ts.map (Token.relocate φ))).1 =
      relocateRead φ (List.map (relocate φ)) (readAll limit ts).1 := by
  induction ts using row_induct limit with
  | done ts hend =>
    have hmoved : atEnd (ts.map (Token.relocate φ)) = true := by rwa [atEnd_relocate]
    rw [readAll_of_atEnd hend, readAll_of_atEnd hmoved]
    rfl
  | failed ts e rest hend hread =>
    have hmoved : atEnd (ts.map (Token.relocate φ)) = false := by rwa [atEnd_relocate]
    have hfailed := @read_relocate φ limit 0 ts
    rw [hread] at hfailed
    rw [readAll_of_error hend hread, readAll_of_error hmoved hfailed]
    rfl
  | tree ts tree rest hread ih =>
    have hmoved := @read_relocate φ limit 0 ts
    rw [hread] at hmoved
    rw [readAll_of_read hread, readAll_of_read hmoved]
    dsimp only
    rw [ih]
    cases (readAll limit rest).1 <;> rfl

/-- So is the first tree, and what is behind it is refused as it is here. -/
theorem readFirst_relocate (options : ReadOptions) (ts : List Token) :
    (readFirst options (ts.map (Token.relocate φ))).1 =
      relocateRead φ (relocate φ) (readFirst options ts).1 := by
  unfold readFirst
  rw [atEnd_relocate, read_relocate]
  split
  · rfl
  · rcases read options.maxDepth 0 ts with ⟨e | tree, _ | ⟨t, rest⟩⟩
    · rfl
    · rfl
    · rfl
    · show (if (options.requireEnd && !t.isEnd) = true then _ else _ : Outcome Tree).1 =
        relocateRead φ _ (if (options.requireEnd && !t.isEnd) = true then _ else _ : Outcome Tree).1
      split <;> rfl

/-! ## Trees below trees -/

/-- If trees are read from a row, they are read from all its tokens up to the end of input. -/
theorem traces_of_readAll_closed {body : List Token} {eof : Token} {trees : List Tree}
    (hlimit : 0 ≤ limit) (hbody : ∀ t ∈ body, t.isEnd = false) (heof : eof.isEnd = true)
    (h : readAll limit (body ++ [eof]) = (.ok trees, rest)) :
    body.map Token.trace = trees.flatMap traces ∧ ∀ t ∈ trees, t.FitsIn limit := by
  obtain ⟨consumed, hconsumed, htraces, hfits⟩ := traces_of_readAll hlimit h
  have hrest : rest ≠ [] := by
    have hclosed : Closed (body ++ [eof]) := ⟨eof, List.getLast?_concat, heof⟩
    have hleft := closed_readAll limit hclosed
    rw [h] at hleft
    exact hleft.ne_nil
  obtain rfl : body = consumed := by
    obtain ⟨more, hmore, hlast⟩ | ⟨more, hmore, hlast⟩ := List.append_eq_append_iff.1 hconsumed
    · -- Behind the body there is one token, and not all of the row is gone.
      rcases more with _ | ⟨t, more⟩
      · rw [hmore, List.append_nil]
      · obtain ⟨-, hnil⟩ := List.cons.inj hlast
        exact absurd (List.append_eq_nil_iff.1 hnil.symm).2 hrest
    · -- What is left begins with the end of input, of which the body has none.
      rcases more with _ | ⟨t, more⟩
      · rw [hmore, List.append_nil]
      · have hend := atEnd_of_readAll h
        rw [hlast] at hend
        have ht : t ∈ body := by
          rw [hmore]
          exact List.mem_append_right consumed List.mem_cons_self
        exact absurd hend (by simp [atEnd, hbody t ht])
  exact ⟨htraces, hfits⟩

/-- Below a text that has trees, the trees of another follow them at the places below, or its error
is found there. -/
theorem allOfText_below {options : ReadOptions} {upper : String} {trees : List Tree}
    (h : allOfText options upper = .ok trees) (lower : String) :
    allOfText options (upper ++ "\n" ++ lower) =
      (trees ++ ·) <$> relocateRead (Position.below upper.toList)
        (List.map (relocate (Position.below upper.toList))) (allOfText options lower) := by
  rw [allOfText] at h
  split at h
  · cases h
  next tokens htokens =>
    rw [allOfText, ofText_below htokens lower]
    obtain ⟨pieces, rfl, hkinds, -⟩ := exists_laid_of_ofText htokens
    have hbody : ∀ t ∈ pieces.map Piece.token, t.isEnd = false := by
      intro t ht
      obtain ⟨p, hp, rfl⟩ := List.mem_map.1 ht
      exact decide_eq_false (hkinds p hp)
    obtain ⟨htraces, hfits⟩ :=
      traces_of_readAll_closed (Int.natCast_nonneg _) hbody rfl (Prod.ext h rfl)
    rw [List.dropLast_concat, allOfText]
    cases Token.ofText lower with
    | error e => rfl
    | ok more =>
      show (readAll _ (pieces.map Piece.token ++ more.map (Token.relocate _))).1 = _
      rw [readAll_append hfits htraces, readAll_relocate]

/-- A text is read like the two texts that it is made of, if a line feed stands between them and the
upper one can be read.  Behind the tokens of the upper text come those of the lower text, at the
places below: there are more bytes and lines before them, and the columns are the same.  If the
lower text has an error, this is found, at its place below.  The same holds of trees. -/
theorem reading_composes (options : ReadOptions) (upper lower : String) :
    (∀ tokens, Token.ofText upper = .ok tokens →
      Token.ofText (upper ++ "\n" ++ lower) =
        (tokens.dropLast ++ ·) <$>
          relocateLexed (Position.below upper.toList) (Token.ofText lower)) ∧
    (∀ trees, allOfText options upper = .ok trees →
      allOfText options (upper ++ "\n" ++ lower) =
        (trees ++ ·) <$> relocateRead (Position.below upper.toList)
          (List.map (relocate (Position.below upper.toList))) (allOfText options lower)) :=
  ⟨fun _ h => ofText_below h lower, fun _ h => allOfText_below h lower⟩

/-- Below a string of two lines and a comment, an open list is found in the third line. -/
theorem reading_composes_open_list :
    let upper := "\"é\n\"; a"
    let lower := "b (c"
    let string : Leaf := .string "é\n"
    Token.ofText upper = .ok [⟨.string, "é\n", ⟨0, 1, 1⟩⟩, ⟨.endOfInput, "", ⟨8, 2, 5⟩⟩] ∧
      Token.ofText (upper ++ "\n" ++ lower) = .ok [⟨.string, "é\n", ⟨0, 1, 1⟩⟩,
        ⟨.symbol, "b", ⟨9, 3, 1⟩⟩, ⟨.openParen, "(", ⟨11, 3, 3⟩⟩, ⟨.symbol, "c", ⟨12, 3, 4⟩⟩,
        ⟨.endOfInput, "", ⟨13, 3, 5⟩⟩] ∧
      allOfText {} upper = .ok [leaf string ⟨0, 1, 1⟩] ∧
      allOfText {} (upper ++ "\n" ++ lower) = .error (.unterminatedList ⟨11, 3, 3⟩) := by
  intro upper lower string
  have htokens : Token.ofText upper =
      .ok [⟨.string, "é\n", ⟨0, 1, 1⟩⟩, ⟨.endOfInput, "", ⟨8, 2, 5⟩⟩] := by decide +kernel
  have htrees : allOfText {} upper = .ok [leaf string ⟨0, 1, 1⟩] := by decide +kernel
  have hlower : Token.ofText lower = .ok [⟨.symbol, "b", ⟨0, 1, 1⟩⟩,
      ⟨.openParen, "(", ⟨2, 1, 3⟩⟩, ⟨.symbol, "c", ⟨3, 1, 4⟩⟩,
      ⟨.endOfInput, "", ⟨4, 1, 5⟩⟩] := by decide +kernel
  have hopen : allOfText {} lower = .error (.unterminatedList ⟨2, 1, 3⟩) := by decide +kernel
  have hboth := (reading_composes {} upper lower).1 _ htokens
  have hall := (reading_composes {} upper lower).2 _ htrees
  rw [hlower] at hboth
  rw [hopen] at hall
  exact ⟨htokens, hboth.trans (by decide +kernel), htrees, hall.trans (by decide +kernel)⟩

end Tree

end CrateNotation
