import CrateNotation.Proofs.Source.Lines

/-!
# Positions and lines as coordinates

A locator finds the position of an index by bisection, and what a line says by a search from its
start.  Both describe one partition of the text: its lines are what line feeds separate, and the
position of an index tells where in which line it is.  So the offset of a position, or its line and
its column, are coordinates of the index.

That later indices have later positions is shown for the next index, which is one column or one line
further, and from there for all.

## Main Definitions

* `Position.Precedes` — the order in which positions are read

## Main Statements

* `Locator.lineText?_succ` — the lines that a locator gives out
* `Position.precedes_ofIndex` — later indices have later positions
* `Locator.coordinates_faithful` — lines and positions as coordinates of a text
-/

namespace CrateNotation

namespace Position

/-- `p.Precedes q` says that `p` is in an earlier line than `q`, or in the same line and an earlier
column. -/
def Precedes (p q : Position) : Prop :=
  p.line < q.line ∨ p.line = q.line ∧ p.column < q.column

variable {p q r : Position} {text : List Char} {i j : Nat}

theorem Precedes.trans (hpq : p.Precedes q) (hqr : q.Precedes r) : p.Precedes r := by
  unfold Precedes at *
  omega

/-- Positions of which one precedes the other do not have the same line and column. -/
theorem Precedes.ne (h : p.Precedes q) : ¬ (p.line = q.line ∧ p.column = q.column) := by
  unfold Precedes at h
  omega

/-- A character ends its line, or takes up a column of it. -/
theorem precedes_next (p : Position) (c : Char) : p.Precedes (p.next c) := by
  unfold next
  split
  · exact .inl (Int.lt_succ p.line)
  · exact .inr ⟨rfl, Int.lt_succ p.column⟩

/-- The position of the next index is the one past the character at the index. -/
theorem ofIndex_succ (h : i < text.length) :
    ofIndex text (i + 1) = (ofIndex text i).next text[i] := by
  rw [ofIndex_eq_after h, ofIndex_eq_after h.le, List.take_succ_eq_append_getElem h, after_concat]

/-- Later indices have later positions. -/
theorem precedes_ofIndex (hij : i < j) (hj : j ≤ text.length) :
    (ofIndex text i).Precedes (ofIndex text j) := by
  induction j, hij using Nat.le_induction with
  | base =>
    rw [ofIndex_succ hj]
    exact precedes_next _ _
  | succ j _ ih =>
    refine (ih (Nat.le_of_succ_le hj)).trans ?_
    rw [ofIndex_succ hj]
    exact precedes_next _ _

end Position

namespace Locator

/-- From each start of a line up to the next line feed, a text says what line feeds separate. -/
theorem map_startsAfter (before text : List Char) :
    (before.length :: startsAfter before.length text).map
        (fun start => ((before ++ text).drop start).takeWhile (· != '\n')) =
      text.splitOn '\n' := by
  induction text generalizing before with
  | nil => simp [startsAfter]
  | cons c text ih =>
    -- The character belongs to what stands before the rest of the text.
    have hrest := ih (before ++ [c])
    simp only [List.length_append, List.length_singleton, List.append_assoc,
      List.singleton_append] at hrest
    rw [List.splitOn_cons_eq_if_modifyHead, ← hrest, startsAfter]
    by_cases hc : c = '\n'
    · simp [hc]
    · have hdrop : (before ++ c :: text).drop (before.length + 1) = text := by
        simp [List.drop_append]
      simp [hc, hdrop]

/-- The lines of a text are what its line feeds separate, and there are no more. -/
theorem lineText?_succ (text : List Char) (n : Nat) :
    (ofText text).lineText? (n + 1) = (text.splitOn '\n')[n]? := by
  have hstart : (ofText text).lineStart? (n + 1) = (0 :: startsAfter 0 text)[n]? := by
    have hnumber : (1 : Int) ≤ n + 1 := by omega
    have hindex : (n : Int) + 1 - 1 = n := by omega
    rw [lineStart?, if_pos hnumber, hindex]
    rw [if_pos (Int.natCast_nonneg n), Int.toNat_natCast, ofText, List.getElem?_toArray]
  rw [lineText?, hstart, ← map_startsAfter [] text, List.getElem?_map]
  rfl

/-- There is one line more than line feeds. -/
theorem length_splitOn_feed (text : List Char) :
    (text.splitOn '\n').length = 1 + text.count '\n' := by
  rw [← map_startsAfter [] text, List.length_map]
  exact length_starts text

/-- Positions and lines are faithful coordinates of a text.  The lines that are numbered from one on
are one more than the line feeds, and joined by line feeds they are the text.  A later index has a
greater offset and comes later in the order of lines and columns, so that either tells the index.
And the line of a position has the character at the index in the column of the position, or ends
there. -/
theorem coordinates_faithful (text : List Char) :
    let position := fun i => ((ofText text).position i).1
    (∃ lines : List (List Char),
      (∀ n : Nat, (ofText text).lineText? (n + 1) = lines[n]?) ∧
      lines.length = 1 + text.count '\n' ∧ ['\n'].intercalate lines = text) ∧
    (∀ i j, i < j → j ≤ text.length →
      (position i).offset < (position j).offset ∧ (position i).Precedes (position j)) ∧
    (∀ i ≤ text.length, ∀ j ≤ text.length,
      ((position i).offset = (position j).offset → i = j) ∧
      ((position i).line = (position j).line ∧ (position i).column = (position j).column → i = j)) ∧
    ∀ i ≤ text.length, ∃ row column,
      (ofText text).lineText? (position i).line = some row ∧
      (position i).column = (column + 1 : Nat) ∧
      (∀ c, text[i]? = some c → c ≠ '\n' → row[column]? = some c) ∧
      ((text[i]? = some '\n' ∨ i = text.length) → column = row.length) := by
  intro position
  have hposition : ∀ i, position i = .ofIndex text i := position_ofText text
  have hoffset : ∀ i j, i < j → j ≤ text.length → (position i).offset < (position j).offset := by
    intro i j hij hj
    rw [hposition, hposition]
    exact Int.ofNat_lt.2 (Position.utf8Length_take_lt hij hj)
  have hprecedes : ∀ i j, i < j → j ≤ text.length → (position i).Precedes (position j) := by
    intro i j hij hj
    rw [hposition, hposition]
    exact Position.precedes_ofIndex hij hj
  refine ⟨?_, fun i j hij hj => ⟨hoffset i j hij hj, hprecedes i j hij hj⟩, ?_, ?_⟩
  · exact ⟨text.splitOn '\n', lineText?_succ text, length_splitOn_feed text,
      List.intercalate_splitOn '\n'⟩
  · intro i hi j hj
    rcases Nat.lt_trichotomy i j with hij | rfl | hji
    · refine ⟨fun h => absurd h (Int.ne_of_lt (hoffset i j hij hj)), fun h => ?_⟩
      exact absurd h (hprecedes i j hij hj).ne
    · exact ⟨fun _ => rfl, fun _ => rfl⟩
    · refine ⟨fun h => absurd h (Int.ne_of_gt (hoffset j i hji hi)), fun h => ?_⟩
      exact absurd ⟨h.1.symm, h.2.symm⟩ (hprecedes j i hji hi).ne
  · intro i hi
    refine ⟨lineBefore text i ++ lineFrom text i, (lineBefore text i).length, ?_, ?_, ?_, ?_⟩
    · rw [hposition]
      exact lineText?_ofIndex text i
    · rw [hposition, Position.column_ofIndex hi, Int.natCast_add, Int.natCast_one]
    · intro c hc hne
      simp [getElem?_line, hc, hne]
    · intro hends
      have hfrom : lineFrom text i = [] := by
        apply lineFrom_eq_nil
        rcases hends with hfeed | rfl
        · simp [hfeed]
        · simp
      rw [hfrom, List.append_nil]

/-- Of two line feeds behind a character of two bytes, the first precedes the second, whose line is
blank. -/
theorem coordinates_faithful_blank_line :
    let text := ['é', '\n', '\n', 'b']
    let position := fun i => ((ofText text).position i).1
    (1 < 2 ∧ 2 ≤ text.length ∧
      (position 1).offset < (position 2).offset ∧ (position 1).Precedes (position 2)) ∧
    (text[2]? = some '\n' ∧ ∃ row column,
      (ofText text).lineText? (position 2).line = some row ∧
      (position 2).column = (column + 1 : Nat) ∧ column = row.length) := by
  intro text position
  obtain ⟨-, hlater, -, hline⟩ := coordinates_faithful text
  have hbound : 2 ≤ text.length := by decide
  obtain ⟨row, column, htext, hcolumn, -, hends⟩ := hline 2 hbound
  exact ⟨⟨by decide, hbound, hlater 1 2 (by decide) hbound⟩,
    rfl, row, column, htext, hcolumn, hends (.inl rfl)⟩

end Locator

end CrateNotation
