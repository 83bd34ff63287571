import CrateNotation.Proofs.Tree.Flattening

/-!
# Reading by descent

The reader keeps the open lists on a stack.  It could as well call itself for every element of a
list, and go through the elements of a list in a loop.  A pair of readers that do so *descends*.

The reader on the stack is one of them.  What it reads inside several open lists it reads inside the
inner ones first, and then, if that succeeds, inside the outer ones; so an element of a list is read
as a tree of its own.  And it is the only one, since a reader that descends is called for fewer
tokens each time, or for the same tokens from within the loop.

## Main Definitions

* `Tree.readElements` — reads the elements of a list that has been opened, up to its end
* `Tree.Descends` — a reader of trees and a reader of elements that call each other

## Main Statements

* `Tree.readOn_append` — the inner lists are read first
* `Tree.descends_read` — the reader on the stack descends
* `Tree.Descends.eq_read` — and every reader that does agrees with it
-/

namespace CrateNotation

namespace Tree

/-- Goes on with a tree that has been read. An error ends all reading. -/
def thenRead (next : Tree → List Token → Outcome Tree) : Outcome Tree → Outcome Tree
  | (.error e, rest) => (.error e, rest)
  | (.ok tree, rest) => next tree rest

/-- Reads the elements of a list up to its end, where `depth` lists lie around each of them. -/
def readElements (limit depth : Int) (l : OpenList) (ts : List Token) : Outcome Tree :=
  readOn limit (depth - 1) [l] ts

section Stack

variable {limit depth : Int} {inner outer : List OpenList} {t : Token} {ts : List Token}

/-- Inside the inner lists, to deliver a tree and read on does not depend on the outer ones. -/
theorem deliver_append
    (ih : ∀ {inner : List OpenList}, inner ≠ [] → readOn limit depth (inner ++ outer) ts =
      thenRead (deliver limit depth · outer ·) (readOn limit (depth + outer.length) inner ts))
    (tree : Tree) :
    deliver limit depth tree (inner ++ outer) ts =
      thenRead (deliver limit depth · outer ·)
        (deliver limit (depth + outer.length) tree inner ts) := by
  cases inner with
  | nil => rfl
  | cons l inner =>
    have hpush : l.push tree :: inner ≠ [] := List.cons_ne_nil _ _
    exact ih hpush

/-- What is read inside open lists is read inside the innermost of them first. -/
theorem readOn_append (hinner : inner ≠ []) (ts : List Token) :
    readOn limit depth (inner ++ outer) ts =
      thenRead (deliver limit depth · outer ·)
        (readOn limit (depth + outer.length) inner ts) := by
  induction ts generalizing inner with
  | nil =>
    obtain ⟨l, inner, rfl⟩ := List.exists_cons_of_ne_nil hinner
    simp only [List.cons_append, readOn, unfinished, thenRead]
  | cons t ts ih =>
    -- However the depth is shared out, as many lists lie around the next token.
    have haround : depth + (inner ++ outer).length = depth + outer.length + inner.length := by
      rw [List.length_append]
      omega
    cases hrole : t.role with
    | opens =>
      by_cases hdepth : depth + outer.length + inner.length + 1 ≤ limit
      · have hopen : (⟨t.pos, []⟩ :: inner : List OpenList) ≠ [] := List.cons_ne_nil _ _
        rw [readOn_opens hrole (by rw [haround]; exact hdepth), readOn_opens hrole hdepth]
        exact ih hopen
      · have hdeep : limit < depth + outer.length + inner.length + 1 := Int.not_le.1 hdepth
        rw [readOn_tooDeep hrole (by rw [haround]; exact hdeep), readOn_tooDeep hrole hdeep]
        rfl
    | closes =>
      obtain ⟨l, inner, rfl⟩ := List.exists_cons_of_ne_nil hinner
      rw [List.cons_append, readOn_closes hrole, readOn_closes hrole]
      exact deliver_append ih l.close
    | leaf l =>
      rw [readOn_leaf hrole, readOn_leaf hrole]
      exact deliver_append ih (leaf l t.pos)
    | ends =>
      obtain ⟨l, inner, rfl⟩ := List.exists_cons_of_ne_nil hinner
      rw [List.cons_append, readOn_ends hrole, readOn_ends hrole]
      rfl

theorem read_opens (h : t.role = .opens) (hdepth : depth + 1 ≤ limit) :
    read limit depth (t :: ts) = readElements limit (depth + 1) ⟨t.pos, []⟩ ts := by
  have hroom : depth + ([] : List OpenList).length + 1 ≤ limit := by simpa using hdepth
  rw [read, readElements, readOn_opens h hroom, Int.add_sub_cancel]

theorem read_tooDeep (h : t.role = .opens) (hdepth : limit < depth + 1) :
    read limit depth (t :: ts) = (.error (.nestingTooDeep limit t.pos), t :: ts) := by
  have hroom : limit < depth + ([] : List OpenList).length + 1 := by simpa using hdepth
  rw [read, readOn_tooDeep h hroom]

/-- Called for a list, the reader goes on with its elements. -/
theorem readList_eq_readElements (h : t.isEnd = false) (hdepth : depth ≤ limit) :
    readList limit depth (t :: ts) = readElements limit depth ⟨t.pos, []⟩ ts := by
  rw [readList, if_neg (Int.not_lt.2 hdepth), if_neg (by simp [h])]
  rfl

/-- An element of a list is read as a tree of its own. -/
theorem readElements_element {l : OpenList} (hcloses : t.role ≠ .closes) (hends : t.role ≠ .ends) :
    readElements limit depth l (t :: ts) =
      thenRead (fun tree rest => readElements limit depth (l.push tree) rest)
        (read limit depth (t :: ts)) := by
  have hdepth : depth - 1 + ([l] : List OpenList).length = depth := Int.sub_add_cancel depth 1
  rw [readElements]
  cases hrole : t.role with
  | opens =>
    by_cases hlimit : depth + 1 ≤ limit
    · have hopen : [(⟨t.pos, []⟩ : OpenList)] ≠ [] := List.cons_ne_nil _ _
      have happend := @readOn_append limit (depth - 1) [⟨t.pos, []⟩] [l] hopen ts
      rw [hdepth] at happend
      rw [readOn_opens hrole (by omega), read_opens hrole hlimit, readElements, Int.add_sub_cancel]
      exact happend
    · have hdeep : limit < depth + 1 := Int.not_le.1 hlimit
      rw [readOn_tooDeep hrole (by omega), read_tooDeep hrole hdeep]
      rfl
  | closes => exact absurd hrole hcloses
  | leaf a =>
    rw [readOn_leaf hrole, read, readOn_leaf hrole]
    rfl
  | ends => exact absurd hrole hends

end Stack

/-! ## Readers that descend -/

/-- `Descends limit tree elements` says that `tree` reads a tree and `elements` reads the elements
of a list one by one, and that they call each other for what lies inside. -/
structure Descends (limit : Int) (tree : Int → List Token → Outcome Tree)
    (elements : Int → OpenList → List Token → Outcome Tree) : Prop where
  leaf : ∀ {depth t ts l}, t.role = .leaf l → tree depth (t :: ts) = (.ok (leaf l t.pos), ts)
  unopened : ∀ {depth t ts}, t.role = .closes →
    tree depth (t :: ts) = (.error (.unexpectedClose t.pos), t :: ts)
  empty : ∀ {depth t ts}, t.role = .ends → tree depth (t :: ts) = (.error .emptyInput, t :: ts)
  tooDeep : ∀ {depth t ts}, t.role = .opens → limit < depth + 1 →
    tree depth (t :: ts) = (.error (.nestingTooDeep limit t.pos), t :: ts)
  opens : ∀ {depth t ts}, t.role = .opens → depth + 1 ≤ limit →
    tree depth (t :: ts) = elements (depth + 1) ⟨t.pos, []⟩ ts
  unterminated : ∀ {depth l t ts}, t.role = .ends →
    elements depth l (t :: ts) = (.error (.unterminatedList l.pos), t :: ts)
  closes : ∀ {depth l t ts}, t.role = .closes → elements depth l (t :: ts) = (.ok l.close, ts)
  element : ∀ {depth l t ts}, t.role ≠ .closes → t.role ≠ .ends →
    elements depth l (t :: ts) =
      thenRead (fun tree rest => elements depth (l.push tree) rest) (tree depth (t :: ts))

/-- The reader on the stack descends. -/
theorem descends_read (limit : Int) : Descends limit (read limit) (readElements limit) where
  leaf := readOn_leaf
  unopened := readOn_unopened
  empty := readOn_ends
  tooDeep := read_tooDeep
  opens := read_opens
  unterminated := readOn_ends
  closes := readOn_closes
  element := readElements_element

namespace Descends

variable {limit : Int} {tree : Int → List Token → Outcome Tree}
  {elements : Int → OpenList → List Token → Outcome Tree} {ts : List Token}

/-- A tree is read alike if elements are, in all shorter rows. -/
theorem tree_eq_read (h : Descends limit tree elements) (hclosed : Closed ts)
    (helements : ∀ rest : List Token, rest.length < ts.length → Closed rest →
      ∀ depth l, elements depth l rest = readElements limit depth l rest) (depth : Int) :
    tree depth ts = read limit depth ts := by
  have hread := descends_read limit
  obtain ⟨t, ts, rfl⟩ := List.exists_cons_of_ne_nil hclosed.ne_nil
  cases hrole : t.role with
  | leaf l => rw [h.leaf hrole, hread.leaf hrole]
  | closes => rw [h.unopened hrole, hread.unopened hrole]
  | ends => rw [h.empty hrole, hread.empty hrole]
  | opens =>
    by_cases hdepth : depth + 1 ≤ limit
    · have hend : t.isEnd = false := by
        rw [Bool.eq_false_iff]
        intro hend
        rw [Token.role_eq_ends_iff.2 hend] at hrole
        cases hrole
      rw [h.opens hrole hdepth, hread.opens hrole hdepth]
      exact helements ts (Nat.lt_succ_self _) (hclosed.tail hend) (depth + 1) ⟨t.pos, []⟩
    · have hdeep : limit < depth + 1 := Int.not_le.1 hdepth
      rw [h.tooDeep hrole hdeep, hread.tooDeep hrole hdeep]

/-- The elements of a list are read alike. -/
theorem elements_eq_readElements (h : Descends limit tree elements) (hclosed : Closed ts)
    (depth : Int) (l : OpenList) : elements depth l ts = readElements limit depth l ts := by
  have hread := descends_read limit
  -- The next element is a tree of the same row, and the elements behind it are a shorter one.
  induction hlength : ts.length using Nat.strongRecOn generalizing ts depth l with
  | ind n ih =>
    have htree : tree depth ts = read limit depth ts := by
      apply h.tree_eq_read hclosed
      intro rest hlt hrest depth l
      exact ih rest.length (hlength ▸ hlt) hrest depth l rfl
    obtain ⟨t, ts, rfl⟩ := List.exists_cons_of_ne_nil hclosed.ne_nil
    by_cases hends : t.role = .ends
    · rw [h.unterminated hends, hread.unterminated hends]
    by_cases hcloses : t.role = .closes
    · rw [h.closes hcloses, hread.closes hcloses]
    rw [h.element hcloses hends, hread.element hcloses hends, htree]
    rcases hfirst : read limit depth (t :: ts) with ⟨e | first, rest⟩
    · rfl
    · have hlt : rest.length < n := hlength ▸ length_lt_of_read hfirst
      have hrest : Closed rest := by
        have hleft := closed_read limit depth hclosed
        rwa [hfirst] at hleft
      exact ih rest.length hlt hrest depth (l.push first) rfl

/-- There is only one way to descend. -/
theorem eq_read (h : Descends limit tree elements) (hclosed : Closed ts) (depth : Int) :
    tree depth ts = read limit depth ts := by
  apply h.tree_eq_read hclosed
  intro rest _ hrest depth l
  exact h.elements_eq_readElements hrest depth l

end Descends

end Tree

end CrateNotation
