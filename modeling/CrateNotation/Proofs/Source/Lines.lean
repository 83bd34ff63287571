import CrateNotation.Proofs.Source.Walk
import CrateNotation.Source.Locator
import Mathlib.Data.List.DropRight

/-!
# Lines of a text

An index of a text lies in a line, with some of the line before it and the rest of the line from it
on.  A locator knows of lines only where they start.  The starts that are at most an index are those
of the text before the index, and the last of them is the start of its line.  So bisection finds the
number of the line, and the line that a locator gives out is the one around the index.

A locator gives the same answer whatever it was asked before, since the bytes that it carries along
are always those before its mark.

## Main Definitions

* `lineBefore`, `lineFrom` — the two parts of the line around an index
* `Locator.Follows` — what a locator is like after any number of lookups

## Main Statements

* `Locator.Follows.position_eq` — a locator finds the position of an index
* `Locator.lineText?_ofIndex` — and the line around it
* `Position.ofIndex_inj` — different indices have different positions
-/

namespace CrateNotation

/-- What stands before index `i` in its line. -/
def lineBefore (text : List Char) (i : Nat) : List Char :=
  (text.take i).rtakeWhile (· != '\n')

/-- What stands in the line of index `i` from there on. -/
def lineFrom (text : List Char) (i : Nat) : List Char :=
  (text.drop i).takeWhile (· != '\n')

/-- No part of a line has a line feed in it. -/
theorem not_mem_lineBefore (text : List Char) (i : Nat) : '\n' ∉ lineBefore text i := by
  intro h
  have hne := List.mem_rtakeWhile_imp h
  cases hne

theorem not_mem_lineFrom (text : List Char) (i : Nat) : '\n' ∉ lineFrom text i := by
  intro h
  have hne := List.mem_takeWhile_imp h
  cases hne

/-- What stands at an index is the next character of its line, unless it ends the line. -/
theorem head?_lineFrom (text : List Char) (i : Nat) :
    (lineFrom text i).head? = text[i]?.filter (· != '\n') := by
  rw [lineFrom, List.head?_takeWhile, List.head?_drop]

/-- What stands at an index is in the line of its position, one place before its column. -/
theorem getElem?_line (text : List Char) (i : Nat) :
    (lineBefore text i ++ lineFrom text i)[(lineBefore text i).length]? =
      text[i]?.filter (· != '\n') := by
  rw [List.getElem?_append_right le_rfl, Nat.sub_self, ← List.head?_eq_getElem?, head?_lineFrom]

/-- Where a line feed or the end of the text stands, the line ends. -/
theorem lineFrom_eq_nil {text : List Char} {i : Nat} (h : ∀ c ∈ text[i]?, c = '\n') :
    lineFrom text i = [] := by
  rw [← List.head?_eq_none_iff, head?_lineFrom, Option.filter_eq_none_iff]
  intro c hc
  simp [h c hc]

namespace Position

variable {text : List Char} {i j : Nat}

theorem length_lineBefore (text : List Char) (i : Nat) :
    (lineBefore text i).length = lastLineLength (text.take i) := by
  rw [lineBefore, List.rtakeWhile, List.length_reverse]
  rfl

/-- The column of an index is counted from what stands before it in its line. -/
theorem column_ofIndex (hi : i ≤ text.length) :
    (ofIndex text i).column = (lineBefore text i).length + 1 := by
  rw [ofIndex_eq_after hi, after_start, length_lineBefore]

/-- There are more bytes before a later index. -/
theorem utf8Length_take_lt (hij : i < j) (hj : j ≤ text.length) :
    utf8Length (text.take i) < utf8Length (text.take j) := by
  have hlt : i < text.length := Nat.lt_of_lt_of_le hij hj
  have hnext : utf8Length (text.take (i + 1)) = utf8Length (text.take i) + text[i].utf8Size := by
    rw [List.take_succ_eq_append_getElem hlt, utf8Length_append]
    rfl
  have hmore : utf8Length (text.take (i + 1)) ≤ utf8Length (text.take j) := by
    obtain ⟨k, rfl⟩ := Nat.exists_eq_add_of_le (Nat.succ_le_of_lt hij)
    rw [Nat.succ_eq_add_one, List.take_add (i := i + 1) (j := k), utf8Length_append]
    exact Nat.le_add_right _ _
  have hpos := text[i].utf8Size_pos
  omega

/-- Different indices of a text have different positions. -/
theorem ofIndex_inj (hi : i ≤ text.length) (hj : j ≤ text.length)
    (h : ofIndex text i = ofIndex text j) : i = j := by
  have hoffset : utf8Length (text.take i) = utf8Length (text.take j) :=
    Int.ofNat_inj.1 (congrArg offset h)
  rcases Nat.lt_trichotomy i j with hij | rfl | hji
  · exact absurd hoffset (Nat.ne_of_lt (utf8Length_take_lt hij hj))
  · rfl
  · exact absurd hoffset.symm (Nat.ne_of_lt (utf8Length_take_lt hji hi))

/-- The part of a text behind its last line feed. -/
theorem drop_lastLineStart (text : List Char) :
    text.drop (lastLineStart text) = text.rtakeWhile (· != '\n') := by
  have hsplit := List.rdropWhile_append_rtakeWhile (p := (· != '\n')) (l := text)
  have hlength : (text.rtakeWhile (· != '\n')).length = lastLineLength text :=
    List.length_reverse
  have hstart : lastLineStart text = (text.rdropWhile (· != '\n')).length := by
    have hsum := congrArg List.length hsplit
    rw [List.length_append, hlength] at hsum
    rw [lastLineStart, ← lastLineLength]
    omega
  conv_lhs => rw [hstart, ← hsplit]
  rw [List.drop_left']
  rw [hsplit]

end Position

namespace Locator

open Position (lastLineStart lastLineLength)

variable {text : List Char} {i : Nat}

/-! ## The starts of lines -/

/-- The indices at which the lines of a text start, in rising order. -/
def starts (text : List Char) : List Nat :=
  0 :: startsAfter 0 text

theorem startsAfter_append (i : Nat) (before rest : List Char) :
    startsAfter i (before ++ rest) =
      startsAfter i before ++ startsAfter (i + before.length) rest := by
  induction before generalizing i with
  | nil => rfl
  | cons c before ih =>
    rw [List.cons_append, startsAfter, startsAfter, ih, List.length_cons, Nat.add_assoc,
      Nat.add_comm 1]
    split
    · rfl
    · rfl

/-- Lines start behind the beginning of the text. -/
theorem lt_of_mem_startsAfter {s : Nat} (h : s ∈ startsAfter i text) : i < s := by
  induction text generalizing i with
  | nil => cases h
  | cons c text ih =>
    rw [startsAfter] at h
    split at h
    · rcases List.mem_cons.1 h with rfl | h
      · exact Nat.lt_succ_self i
      · exact Nat.lt_of_succ_lt (ih h)
    · exact Nat.lt_of_succ_lt (ih h)

/-- No line starts behind the end of the text. -/
theorem le_of_mem_startsAfter {s : Nat} (h : s ∈ startsAfter i text) : s ≤ i + text.length := by
  induction text generalizing i with
  | nil => cases h
  | cons c text ih =>
    rw [List.length_cons]
    rw [startsAfter] at h
    split at h
    · rcases List.mem_cons.1 h with rfl | h
      · omega
      · have := ih h
        omega
    · have := ih h
      omega

/-- A text has one line more than line feeds. -/
theorem length_starts (text : List Char) : (starts text).length = 1 + text.count '\n' := by
  induction text using List.reverseRecOn with
  | nil => rfl
  | append_singleton text c ih =>
    rw [starts, List.length_cons] at ih
    rw [starts, startsAfter_append, List.length_cons, List.length_append, List.count_append]
    by_cases hc : c = '\n'
    · simp [startsAfter, hc]
      omega
    · simp [startsAfter, hc]
      omega

/-- The last line of a text starts behind its last line feed. -/
theorem getLast?_starts (text : List Char) :
    (starts text).getLast? = some (lastLineStart text) := by
  induction text using List.reverseRecOn with
  | nil => rfl
  | append_singleton text c ih =>
    have hstart : lastLineStart (text ++ [c]) =
        text.length + 1 - lastLineLength (text ++ [c]) := by
      rw [lastLineStart, List.length_append]
      rfl
    have hbefore : lastLineStart text = text.length - lastLineLength text := rfl
    have hle := Position.lastLineLength_le text
    rw [starts, startsAfter_append, ← List.cons_append, ← starts, hstart,
      Position.lastLineLength_concat]
    by_cases hc : c = '\n'
    · rw [if_pos hc, startsAfter, if_pos hc, startsAfter, Nat.zero_add, List.getLast?_append]
      rfl
    · rw [if_neg hc, startsAfter, if_neg hc, startsAfter, List.append_nil, ih, hbefore]
      congr 1
      omega

/-- The starts of lines up to an index are those of the text before it. -/
theorem starts_eq_append (text : List Char) (i : Nat) :
    ∃ late, starts text = starts (text.take i) ++ late ∧
      (∀ s ∈ starts (text.take i), s ≤ i) ∧ ∀ s ∈ late, i < s := by
  refine ⟨startsAfter (text.take i).length (text.drop i), ?_, ?_, ?_⟩
  · conv_lhs => rw [← List.take_append_drop i text]
    rw [starts, startsAfter_append, Nat.zero_add]
    rfl
  · intro s hs
    rcases List.mem_cons.1 hs with rfl | hs
    · exact Nat.zero_le i
    · have hle := le_of_mem_startsAfter hs
      have hlength := List.length_take_le i text
      omega
  · intro s hs
    rcases Nat.le_total i text.length with hi | hi
    · rw [List.length_take_of_le hi] at hs
      exact lt_of_mem_startsAfter hs
    · rw [List.drop_of_length_le hi] at hs
      cases hs

/-! ## Bisection -/

/-- Bisection finds where the numbers that are at most `i` end. -/
theorem upperBound_append {early late : List Nat} {lo hi : Nat} (hearly : ∀ s ∈ early, s ≤ i)
    (hlate : ∀ s ∈ late, i < s) (hlo : lo ≤ early.length) (hhi : early.length ≤ hi)
    (hsize : hi ≤ (early ++ late).length) :
    upperBound (early ++ late).toArray i lo hi = early.length := by
  have hget : ∀ k < (early ++ late).length,
      (early ++ late).toArray.getD k 0 = (early ++ late)[k]?.getD 0 := by
    intro k _
    simp
  -- The border between the two parts stays between the bounds.
  fun_induction upperBound (early ++ late).toArray i lo hi with
  | case1 lo hi hlt mid hbefore ih =>
    have hmid : mid < hi := by omega
    rw [hget mid (Nat.lt_of_lt_of_le hmid hsize)] at hbefore
    have hborder : early.length ≤ mid := by
      by_contra hlt'
      have hlt' := Nat.lt_of_not_le hlt'
      rw [List.getElem?_append_left hlt', List.getElem?_eq_getElem hlt', Option.getD_some]
        at hbefore
      exact absurd (hearly _ (List.getElem_mem hlt')) (Nat.not_le.2 hbefore)
    exact ih hlo hborder (by omega)
  | case2 lo hi hlt mid hbefore ih =>
    have hmid : mid < hi := by omega
    rw [hget mid (Nat.lt_of_lt_of_le hmid hsize)] at hbefore
    have hborder : mid < early.length := by
      by_contra hle
      have hle := Nat.le_of_not_lt hle
      have hbound : mid - early.length < late.length := by
        rw [List.length_append] at hsize
        omega
      rw [List.getElem?_append_right hle, List.getElem?_eq_getElem hbound, Option.getD_some]
        at hbefore
      exact hbefore (hlate _ (List.getElem_mem hbound))
    exact ih hborder hhi hsize
  | case3 lo hi hlt => omega

/-! ## Lookups -/

/-- What a locator for a text is like after any number of lookups: the bytes it carries are those
before its mark. -/
structure Follows (l : Locator) (text : List Char) : Prop where
  text_eq : l.text = text
  lineStarts_eq : l.lineStarts = (starts text).toArray
  bytes_eq : l.bytes = utf8Length (text.take l.mark)
  ahead_eq : l.ahead = text.drop l.mark

theorem follows_ofText (text : List Char) : (ofText text).Follows text where
  text_eq := rfl
  lineStarts_eq := rfl
  bytes_eq := rfl
  ahead_eq := rfl

namespace Follows

variable {l : Locator}

theorem rewind (h : l.Follows text) : l.rewind.Follows text where
  text_eq := h.text_eq
  lineStarts_eq := h.lineStarts_eq
  bytes_eq := rfl
  ahead_eq := h.text_eq

theorem advance (h : l.Follows text) (n : Nat) : (l.advance n).Follows text where
  text_eq := h.text_eq
  lineStarts_eq := h.lineStarts_eq
  bytes_eq := by
    show l.bytes + utf8Length (l.ahead.take n) = utf8Length (text.take (l.mark + n))
    rw [h.bytes_eq, h.ahead_eq, List.take_add, utf8Length_append]
  ahead_eq := by
    show l.ahead.drop n = text.drop (l.mark + n)
    rw [h.ahead_eq, List.drop_drop]

/-- A lookup carries the mark to the index that is asked for. -/
theorem moveTo (h : l.Follows text) (i : Nat) :
    (l.moveTo i).Follows text ∧ (l.moveTo i).mark = i := by
  unfold Locator.moveTo
  split
  · exact ⟨h.rewind.advance i, Nat.zero_add i⟩
  next hle => exact ⟨h.advance _, Nat.add_sub_cancel' (Nat.le_of_not_lt hle)⟩

/-- The number of bytes before an index is found, whatever was asked before. -/
theorem byteOffset_eq (h : l.Follows text) (i : Nat) :
    (l.byteOffset i).1 = utf8Length (text.take i) ∧ (l.byteOffset i).2.Follows text := by
  obtain ⟨hmoved, hmark⟩ := h.moveTo i
  refine ⟨?_, hmoved⟩
  rw [byteOffset, hmoved.bytes_eq, hmark]

/-- The line of an index is found by its number. -/
theorem lineOf_eq (h : l.Follows text) (i : Nat) :
    l.lineOf i = 1 + (text.take i).count '\n' := by
  obtain ⟨late, hstarts, hearly, hlate⟩ := starts_eq_append text i
  rw [lineOf, h.lineStarts_eq, hstarts, List.size_toArray,
    upperBound_append hearly hlate (Nat.zero_le _) ?_ le_rfl, length_starts]
  rw [List.length_append]
  exact Nat.le_add_right _ _

/-- The line of an index starts behind the last line feed before it. -/
theorem lineStarts_getElem? (h : l.Follows text) (i : Nat) :
    l.lineStarts[(text.take i).count '\n']? = some (lastLineStart (text.take i)) := by
  obtain ⟨late, hstarts, -, -⟩ := starts_eq_append text i
  have hlength := length_starts (text.take i)
  have hlast : (text.take i).count '\n' = (starts (text.take i)).length - 1 := by omega
  rw [h.lineStarts_eq, hstarts, List.getElem?_toArray, List.getElem?_append_left (by omega), hlast,
    ← List.getLast?_eq_getElem?, getLast?_starts]

/-- A locator finds the position of an index, whatever was asked before. -/
theorem position_eq (h : l.Follows text) (i : Nat) :
    (l.position i).1 = .ofIndex text i ∧ (l.position i).2.Follows text := by
  obtain ⟨hoffset, hfollows⟩ := h.byteOffset_eq i
  refine ⟨?_, hfollows⟩
  have hstart : l.lineStarts.getD (l.lineOf i - 1) 0 = lastLineStart (text.take i) := by
    rw [h.lineOf_eq, Nat.add_sub_cancel_left, Array.getD_eq_getD_getElem?, h.lineStarts_getElem?,
      Option.getD_some]
  have hle : lastLineStart (text.take i) ≤ i := by
    have hlength := List.length_take_le i text
    rw [lastLineStart]
    omega
  show (⟨(l.byteOffset i).1, l.lineOf i, (i - l.lineStarts.getD (l.lineOf i - 1) 0 + 1 : Nat)⟩ :
    Position) = _
  rw [hoffset, hstart, h.lineOf_eq, Position.ofIndex, Position.mk.injEq]
  refine ⟨rfl, by simp, ?_⟩
  omega

end Follows

/-- A fresh locator finds the position of an index. -/
theorem position_ofText (text : List Char) (i : Nat) :
    ((ofText text).position i).1 = .ofIndex text i :=
  ((follows_ofText text).position_eq i).1

/-- The line at the position of an index is the one around the index. -/
theorem lineText?_ofIndex (text : List Char) (i : Nat) :
    (ofText text).lineText? (Position.ofIndex text i).line =
      some (lineBefore text i ++ lineFrom text i) := by
  have hfollows := follows_ofText text
  have hstart : (ofText text).lineStart? (Position.ofIndex text i).line =
      some (lastLineStart (text.take i)) := by
    have hline : (1 : Int) ≤ 1 + (text.take i).count '\n' := by omega
    have hnumber : (1 : Int) + (text.take i).count '\n' - 1 = (text.take i).count '\n' := by omega
    rw [lineStart?, Position.ofIndex, if_pos hline, hnumber]
    exact (if_pos (Int.natCast_nonneg _)).trans (hfollows.lineStarts_getElem? i)
  -- The line starts in the text before the index, and goes on behind the index.
  have hdrop : text.drop (lastLineStart (text.take i)) = lineBefore text i ++ text.drop i := by
    have hle : lastLineStart (text.take i) ≤ (text.take i).length := Nat.sub_le _ _
    calc
      text.drop (lastLineStart (text.take i)) =
          (text.take i ++ text.drop i).drop (lastLineStart (text.take i)) := by
        rw [List.take_append_drop]
      _ = (text.take i).drop (lastLineStart (text.take i)) ++ text.drop i :=
        List.drop_append_of_le_length hle
      _ = lineBefore text i ++ text.drop i := by
        rw [Position.drop_lastLineStart]
        rfl
  have hbefore : ∀ c ∈ lineBefore text i, (c != '\n') = true := by
    intro c hc
    exact List.mem_rtakeWhile_imp (p := (· != '\n')) hc
  rw [lineText?, hstart, Option.map_some]
  show some ((text.drop _).takeWhile _) = _
  rw [hdrop, List.takeWhile_append_of_pos hbefore]
  rfl

end Locator

end CrateNotation
