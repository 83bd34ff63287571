import CrateNotation.Proofs.Text.LiteralAt
import CrateNotation.Proofs.Tree.RoundTrip
import Mathlib.Algebra.Ring.Nat

/-!
# Rows of a printed tree

A printed tree has one row, or several, and each row but the first is indented.  How far is told by
the parentheses that are open where the row begins, so that it could be found from the text alone.
Nothing else depends on the indent.

A printer is taken apart into strokes: it writes a character, or begins a new row and knows how many
lists are around it.  The strokes of a tree do not depend on the indent, which only says how they are
spelled.  That the lists around a new row are the parentheses that are open there is an invariant of
the strokes, and is carried through a tree from what is written before it to what is written behind.

## Main Definitions

* `ParenCount`, `openParens` — the parentheses that are open behind a text
* `Stroke`, `Tree.strokes` — what a printer does
* `Stroke.Indented` — new rows begin inside as many lists as parentheses are open
* `Row`, `Stroke.rows` — the rows that are written
* `Tree.breaks` — where the layout breaks a tree

## Main Statements

* `Tree.toList_renderAt` — a tree is printed by its strokes
* `Tree.indented_strokes` — the strokes of a lexable tree keep the invariant
* `Tree.indentation_is_nesting` — what this says about the rows of a printed tree
-/

namespace CrateNotation

open Text

/-! ## Open parentheses -/

/-- Where a character stands. -/
inductive Quoting where
  | outside
  /-- In a string literal. -/
  | inside
  /-- In a string literal and behind the backslash of an escape. -/
  | escaped
deriving DecidableEq

/-- What is known of a text that has been gone through. -/
structure ParenCount where
  /-- The parentheses that were opened, less those that were closed, apart from those in string
  literals. -/
  opened : Int
  /-- Where the next character stands. -/
  quoting : Quoting
deriving DecidableEq

namespace ParenCount

/-- The count behind one more character. -/
def next (s : ParenCount) (c : Char) : ParenCount :=
  match s.quoting with
  | .outside =>
    if c = '(' then { s with opened := s.opened + 1 }
    else if c = ')' then { s with opened := s.opened - 1 }
    else if c = '"' then { s with quoting := .inside }
    else s
  | .inside =>
    if c = '"' then { s with quoting := .outside }
    else if c = '\\' then { s with quoting := .escaped }
    else s
  | .escaped => { s with quoting := .inside }

/-- The count behind more characters. -/
def after (s : ParenCount) (text : List Char) : ParenCount :=
  text.foldl next s

@[simp]
theorem after_nil (s : ParenCount) : s.after [] = s := rfl

@[simp]
theorem after_cons (s : ParenCount) (c : Char) (text : List Char) :
    s.after (c :: text) = (s.next c).after text := rfl

@[simp]
theorem after_append (s : ParenCount) (text more : List Char) :
    s.after (text ++ more) = (s.after text).after more :=
  List.foldl_append

variable {text value body : List Char} {n : Int}

/-- Outside of literals only three characters count. -/
theorem after_of_plain (h : ∀ c ∈ text, c ≠ '(' ∧ c ≠ ')' ∧ c ≠ '"') :
    (⟨n, .outside⟩ : ParenCount).after text = ⟨n, .outside⟩ := by
  induction text with
  | nil => rfl
  | cons c text ih =>
    obtain ⟨⟨hopen, hclose, hquote⟩, hmore⟩ := List.forall_mem_cons.1 h
    have hnext : (⟨n, .outside⟩ : ParenCount).next c = ⟨n, .outside⟩ := by
      simp [next, hopen, hclose, hquote]
    rw [after_cons, hnext, ih hmore]

/-- The body of a literal stays in the literal. -/
theorem after_literalBody (h : LiteralBody value body) :
    (⟨n, .inside⟩ : ParenCount).after body = ⟨n, .inside⟩ := by
  induction h with
  | nil => rfl
  | @plain c _ _ mark backslash _ ih =>
    have hnext : (⟨n, .inside⟩ : ParenCount).next c = ⟨n, .inside⟩ := by
      simp [next, mark, backslash]
    rw [after_cons, hnext, ih]
  | escape _ _ ih => exact ih

/-- Symbol characters do not count. -/
theorem after_symbolChars (h : ∀ c ∈ text, isSymbolChar c = true) :
    (⟨n, .outside⟩ : ParenCount).after text = ⟨n, .outside⟩ := by
  apply after_of_plain
  intro c hc
  have hmark := isMark_of_isSymbolChar (h c hc)
  simp only [isMark, decide_eq_false_iff_not, List.mem_cons, List.not_mem_nil, or_false,
    not_or] at hmark
  exact ⟨hmark.2.1, hmark.2.2.1, hmark.2.2.2.2⟩

/-- A lexable leaf leaves the count as it is. -/
theorem after_render {l : Leaf} (h : l.Lexable) :
    (⟨n, .outside⟩ : ParenCount).after l.render.toList = ⟨n, .outside⟩ := by
  obtain ⟨kind, lexeme, hspells, hrole⟩ := h.spells
  generalize l.render.toList = spelling at hspells ⊢
  cases hspells with
  | openParen | closeParen => cases hrole .start
  | keyword name_ok =>
    have hcolon : (⟨n, .outside⟩ : ParenCount).next ':' = ⟨n, .outside⟩ := rfl
    rw [after_cons, hcolon, after_symbolChars name_ok.2]
  | string body_ok =>
    have hquote : (⟨n, .outside⟩ : ParenCount).next '"' = ⟨n, .inside⟩ := rfl
    rw [List.cons_append, after_cons, hquote, after_append, after_literalBody body_ok]
    rfl
  | number text_ok => exact after_symbolChars text_ok.isSymbolChar_of_mem
  | symbol text_ok => exact after_symbolChars text_ok.1.isSymbolChar_of_mem
  | nil => rfl

end ParenCount

/-- The parentheses that are opened in a text and not closed, apart from those in string literals. -/
def openParens (text : List Char) : Int :=
  ((⟨0, .outside⟩ : ParenCount).after text).opened

/-! ## Leaves -/

namespace Leaf

/-- No line feed comes from a leaf. -/
theorem Lexable.not_mem_render {l : Leaf} (h : l.Lexable) : '\n' ∉ l.render.toList := by
  have hname : ∀ {text : List Char}, (∀ c ∈ text, isSymbolChar c = true) → '\n' ∉ text := by
    intro text htext hfeed
    exact absurd (htext '\n' hfeed) (by decide)
  cases l with
  | symbol text => exact hname (IsName.isSymbolChar_of_mem h.1)
  | keyword name =>
    have hfeed := hname h.2
    simp [hfeed]
  | string text =>
    have hfeed := not_mem_escape (c := '\n') (by decide) text.toList
    simp [hfeed]
  | number text => exact hname (IsNumber.isSymbolChar_of_mem h)
  | nil => decide

/-- A leaf begins with no space and with no parenthesis. -/
theorem Lexable.exists_render_cons {l : Leaf} (h : l.Lexable) :
    ∃ c rest, l.render.toList = c :: rest ∧ c ≠ ' ' ∧ c ≠ ')' := by
  have hname : ∀ {text : List Char}, text ≠ [] → (∀ c ∈ text, isSymbolChar c = true) →
      ∃ c rest, text = c :: rest ∧ c ≠ ' ' ∧ c ≠ ')' := by
    intro text hne htext
    obtain ⟨c, rest, rfl⟩ := List.exists_cons_of_ne_nil hne
    have hc := htext c List.mem_cons_self
    refine ⟨c, rest, rfl, ?_, ?_⟩
    · rintro rfl
      cases hc
    · rintro rfl
      cases hc
  obtain ⟨kind, lexeme, hspells, hrole⟩ := h.spells
  generalize l.render.toList = spelling at hspells ⊢
  cases hspells with
  | openParen | closeParen => cases hrole .start
  | keyword | string | nil => exact ⟨_, _, rfl, by decide, by decide⟩
  | number text_ok => exact hname text_ok.ne_nil text_ok.isSymbolChar_of_mem
  | symbol text_ok => exact hname text_ok.1.ne_nil text_ok.1.isSymbolChar_of_mem

end Leaf

/-! ## Strokes -/

/-- What a printer does next. -/
inductive Stroke where
  /-- It writes a character. -/
  | char (c : Char)
  /-- It begins a new row, with so many lists around it. -/
  | newRow (depth : Nat)

/-- A row of a printed tree but the first, without its indentation. -/
structure Row where
  /-- The number of lists around the beginning of the row. -/
  depth : Nat
  content : List Char

/-- A row as it is printed. -/
def Row.spell (indent : Nat) (r : Row) : List Char :=
  List.replicate (indent * r.depth) ' ' ++ r.content

namespace Stroke

/-- What is written. -/
def spell (indent : Nat) : Stroke → List Char
  | char c => [c]
  | newRow depth => '\n' :: List.replicate (indent * depth) ' '

/-- The row that strokes go on with, and those that they begin. -/
def rows : List Stroke → List Char × List Row
  | [] => ([], [])
  | char c :: more => (c :: (rows more).1, (rows more).2)
  | newRow depth :: more => ([], ⟨depth, (rows more).1⟩ :: (rows more).2)

/-- The strokes begin with a character that is neither a space nor a closing parenthesis. -/
def BeginsRow (strokes : List Stroke) : Prop :=
  ∃ c more, strokes = char c :: more ∧ c ≠ ' ' ∧ c ≠ ')'

/-- `Indented s strokes` says that behind a text with the count `s` no line feed is written as a
character, and that new rows begin as rows do, outside of literals and inside as many lists as
parentheses are open. -/
def Indented : ParenCount → List Stroke → Prop
  | _, [] => True
  | s, char c :: more => c ≠ '\n' ∧ Indented (s.next c) more
  | s, newRow depth :: more =>
    (s = ⟨depth, .outside⟩ ∧ 1 ≤ depth ∧ BeginsRow more) ∧ Indented s more

variable {s : ParenCount} {text : List Char} {strokes more : List Stroke} {indent : Nat}

theorem BeginsRow.append (h : BeginsRow strokes) (more : List Stroke) :
    BeginsRow (strokes ++ more) := by
  obtain ⟨c, rest, rfl, hspace, hclose⟩ := h
  exact ⟨c, rest ++ more, rfl, hspace, hclose⟩

/-- Characters may be written if none of them is a line feed. -/
theorem Indented.chars_append (htext : '\n' ∉ text) (h : Indented (s.after text) more) :
    Indented s (text.map char ++ more) := by
  induction text generalizing s with
  | nil => exact h
  | cons c text ih =>
    obtain ⟨hc, hmore⟩ := not_or.1 (mt List.mem_cons.2 htext)
    exact ⟨Ne.symm hc, ih hmore h⟩

/-- What is put before a text without a line feed comes into its first row. -/
theorem splitOn_append {line text first : List Char} {others : List (List Char)}
    (hline : '\n' ∉ line) (h : text.splitOn '\n' = first :: others) :
    (line ++ text).splitOn '\n' = (line ++ first) :: others := by
  induction line with
  | nil => exact h
  | cons c line ih =>
    obtain ⟨hc, hmore⟩ := not_or.1 (mt List.mem_cons.2 hline)
    rw [List.cons_append, List.splitOn_cons_eq_if_modifyHead, ih hmore]
    simp [Ne.symm hc]

/-- The rows of what is written are those of the strokes, each with its indentation. -/
theorem splitOn_spell (h : Indented s strokes) (indent : Nat) :
    (strokes.flatMap (spell indent)).splitOn '\n' =
      (rows strokes).1 :: (rows strokes).2.map (Row.spell indent) := by
  fun_induction Indented s strokes with
  | case1 => rfl
  | case2 s c more ih =>
    have hc : '\n' ∉ [c] := by simpa using Ne.symm h.1
    rw [List.flatMap_cons, rows]
    exact splitOn_append hc (ih h.2)
  | case3 s depth more ih =>
    have hpad : '\n' ∉ List.replicate (indent * depth) ' ' := by simp
    have hrow := splitOn_append hpad (ih h.2)
    rw [List.flatMap_cons, spell, List.cons_append, List.splitOn_cons_eq_if_modifyHead, hrow, rows]
    rfl

/-- Line feeds and spaces leave the count of parentheses as it is. -/
theorem after_spell_newRow (n : Int) (depth : Nat) :
    (⟨n, .outside⟩ : ParenCount).after ((newRow depth).spell indent) = ⟨n, .outside⟩ := by
  apply ParenCount.after_of_plain
  rw [spell]
  refine List.forall_mem_cons.2 ⟨by decide, ?_⟩
  intro c hc
  obtain rfl := List.eq_of_mem_replicate hc
  decide

/-- What is put before a text comes before its first row. -/
theorem intercalate_append {α : Type} (sep line first : List α) (others : List (List α)) :
    sep.intercalate ((line ++ first) :: others) = line ++ sep.intercalate (first :: others) := by
  cases others with
  | nil => simp
  | cons second others => simp [List.intercalate_cons_cons]

/-- A row begins inside as many lists as parentheses are open behind the rows before it, and
neither with a space nor with a closing parenthesis. -/
theorem rows_indented (h : Indented s strokes) (indent n : Nat) {r : Row}
    (hr : (rows strokes).2[n]? = some r) :
    (s.after (['\n'].intercalate
      (((rows strokes).1 :: (rows strokes).2.map (Row.spell indent)).take (n + 1)))).opened =
        r.depth ∧
      1 ≤ r.depth ∧ ∃ c ∈ r.content.head?, c ≠ ' ' ∧ c ≠ ')' := by
  fun_induction Indented s strokes generalizing n with
  | case1 => cases hr
  | case2 s c more ih =>
    rw [rows] at hr ⊢
    have hmore := ih h.2 n hr
    rw [List.take_succ_cons] at hmore ⊢
    rw [show c :: (rows more).1 = [c] ++ (rows more).1 from rfl, intercalate_append]
    exact hmore
  | case3 s depth more ih =>
    obtain ⟨⟨rfl, hdepth, hbegins⟩, hmore⟩ := h
    rw [rows] at hr ⊢
    cases n with
    | zero =>
      obtain ⟨c, rest, rfl, hspace, hclose⟩ := hbegins
      obtain rfl := Option.some.inj hr
      exact ⟨rfl, hdepth, c, rfl, hspace, hclose⟩
    | succ n =>
      -- The line feed and the spaces that begin a row come before what is in it.
      have hafter := ih hmore n hr
      rw [List.take_succ_cons] at hafter
      have hrows : ['\n'].intercalate
          (([] :: (Row.mk depth (rows more).1 :: (rows more).2).map (Row.spell indent)).take
            (n + 1 + 1)) =
          (newRow depth).spell indent ++ ['\n'].intercalate
            ((rows more).1 :: ((rows more).2.map (Row.spell indent)).take n) := by
        rw [List.map_cons, List.take_succ_cons, List.take_succ_cons, List.intercalate_cons_cons,
          Row.spell, intercalate_append]
        simp [spell]
      rw [hrows, ParenCount.after_append, after_spell_newRow]
      exact hafter

/-- How many rows are begun. -/
theorem length_rows_append (strokes more : List Stroke) :
    (rows (strokes ++ more)).2.length = (rows strokes).2.length + (rows more).2.length := by
  induction strokes with
  | nil => simp [rows]
  | cons stroke strokes ih =>
    cases stroke with
    | char c => exact ih
    | newRow depth => simp [rows, ih, Nat.add_right_comm]

theorem length_rows_intercalate (sep : List Stroke) (parts : List (List Stroke)) :
    (rows (sep.intercalate parts)).2.length =
      (parts.length - 1) * (rows sep).2.length +
        (parts.map fun part => (rows part).2.length).sum := by
  induction parts with
  | nil => simp [rows]
  | cons part parts ih =>
    cases parts with
    | nil => simp
    | cons next parts =>
      have hcount : (part :: next :: parts).length - 1 = (next :: parts).length - 1 + 1 := rfl
      rw [List.intercalate_cons_cons, length_rows_append, length_rows_append, ih, hcount,
        Nat.add_one_mul, List.map_cons (l := next :: parts), List.sum_cons]
      omega

theorem length_rows_chars (text : List Char) : (rows (text.map char)).2.length = 0 := by
  induction text with
  | nil => rfl
  | cons c text ih => exact ih

end Stroke

/-! ## The strokes of a tree -/

namespace Tree

open Stroke

/-- What comes between the elements of a list that has `depth` lists around it. -/
def gap (elements : List Tree) (depth : Nat) : List Stroke :=
  if fitsOnLine elements then [char ' '] else [newRow (depth + 1)]

mutual

/-- The strokes of a tree that has `depth` lists around it. -/
def strokes (depth : Nat) : Tree → List Stroke
  | leaf l _ => l.render.toList.map char
  | list elements _ =>
    char '(' :: ((gap elements depth).intercalate (allStrokes depth elements) ++ [char ')'])
  | hole => []

/-- The strokes of the elements of a list that has `depth` lists around it. -/
def allStrokes (depth : Nat) : List Tree → List (List Stroke)
  | [] => []
  | t :: ts => t.strokes (depth + 1) :: allStrokes depth ts

end

@[simp]
theorem allStrokes_eq_map (depth : Nat) (ts : List Tree) :
    allStrokes depth ts = ts.map (strokes (depth + 1)) := by
  induction ts with
  | nil => rfl
  | cons t ts ih => simp [allStrokes, ih]

mutual

/-- The places at which the layout breaks a tree: between the elements of every list that is not
written on one line. -/
def breaks : Tree → Nat
  | leaf .. => 0
  | list elements _ => (if fitsOnLine elements then 0 else elements.length - 1) + allBreaks elements
  | hole => 0

/-- The places at which the layout breaks the trees of a row. -/
def allBreaks : List Tree → Nat
  | [] => 0
  | t :: ts => t.breaks + allBreaks ts

end

@[simp]
theorem allBreaks_eq_sum (ts : List Tree) : allBreaks ts = (ts.map breaks).sum := by
  induction ts with
  | nil => rfl
  | cons t ts ih => simp [allBreaks, ih]

/-- What is written by parts with something between them is written part by part. -/
theorem flatMap_intercalate {α β : Type} (f : α → List β) (sep : List α) (parts : List (List α)) :
    (sep.intercalate parts).flatMap f =
      (sep.flatMap f).intercalate (parts.map (List.flatMap f)) := by
  induction parts with
  | nil => rfl
  | cons part parts ih =>
    cases parts with
    | nil => simp
    | cons next parts => simp [List.intercalate_cons_cons, ih]

/-- A tree is printed by its strokes. -/
theorem toList_renderAt (options : PrintOptions) (depth : Nat) (t : Tree) :
    (renderAt options depth t).toList = (t.strokes depth).flatMap (spell options.indent) := by
  induction t generalizing depth with
  | leaf l pos =>
    rw [renderAt, strokes, List.flatMap_map]
    exact (List.flatMap_singleton' _).symm
  | list elements pos ih =>
    have hgap : (separator options elements depth).toList =
        (gap elements depth).flatMap (spell options.indent) := by
      rw [separator, gap]
      split
      · rfl
      · simp [spell]
    have hparts : (elements.map (renderAt options (depth + 1))).map String.toList =
        (elements.map (strokes (depth + 1))).map (List.flatMap (spell options.indent)) := by
      rw [List.map_map, List.map_map]
      exact List.map_congr_left fun t ht => ih t ht (depth + 1)
    rw [renderAt, strokes, renderParts_eq_map, allStrokes_eq_map, String.toList_append,
      String.toList_append, String.toList_intercalate, hgap, hparts, List.flatMap_cons,
      List.flatMap_append, flatMap_intercalate]
    rfl
  | hole => rfl

/-- A lexable tree begins with no space and with no closing parenthesis. -/
theorem beginsRow_strokes {t : Tree} (h : t.Lexable) (depth : Nat) :
    BeginsRow (t.strokes depth) := by
  cases h with
  | leaf pos leaf_ok =>
    obtain ⟨c, rest, hrender, hspace, hclose⟩ := leaf_ok.exists_render_cons
    exact ⟨c, rest.map char, by rw [strokes, hrender, List.map_cons], hspace, hclose⟩
  | list pos elements_ok => exact ⟨'(', _, by rw [strokes], by decide, by decide⟩

/-- Elements that keep the invariant may be written one after the other, with something between
them that keeps it before each of them. -/
theorem indented_intercalate {s : ParenCount} {sep : List Stroke} {parts : List (List Stroke)}
    (hparts : ∀ part ∈ parts,
      BeginsRow part ∧ ∀ rest, Indented s rest → Indented s (part ++ rest))
    (hsep : ∀ rest, BeginsRow rest → Indented s rest → Indented s (sep ++ rest))
    {rest : List Stroke} (h : Indented s rest) : Indented s (sep.intercalate parts ++ rest) := by
  induction parts with
  | nil => exact h
  | cons part parts ih =>
    obtain ⟨⟨-, hpart⟩, hmore⟩ := List.forall_mem_cons.1 hparts
    cases parts with
    | nil => simpa using hpart rest h
    | cons next parts =>
      have hbegins : BeginsRow (sep.intercalate (next :: parts) ++ rest) := by
        obtain ⟨hnext, -⟩ := hmore next List.mem_cons_self
        have hsplit : sep.intercalate (next :: parts) = next ++ sep.intercalate ([] :: parts) := by
          rw [← Stroke.intercalate_append, List.append_nil]
        rw [hsplit, List.append_assoc]
        exact hnext.append _
      rw [List.intercalate_cons_cons, List.append_assoc, List.append_assoc]
      exact hpart _ (hsep _ hbegins (ih hmore))

/-- A lexable tree keeps the invariant where as many parentheses are open as lists are around it,
and closes those that it opens. -/
theorem indented_strokes {t : Tree} (h : t.Lexable) (depth : Nat) {rest : List Stroke}
    (hrest : Indented ⟨depth, .outside⟩ rest) :
    Indented ⟨depth, .outside⟩ (t.strokes depth ++ rest) := by
  induction h generalizing depth rest with
  | leaf pos leaf_ok =>
    apply Indented.chars_append leaf_ok.not_mem_render
    rwa [ParenCount.after_render leaf_ok]
  | @list elements pos elements_ok ih =>
    have hopen : (⟨depth, .outside⟩ : ParenCount).next '(' = ⟨(depth + 1 : Nat), .outside⟩ := rfl
    have hclose : (⟨(depth + 1 : Nat), .outside⟩ : ParenCount).next ')' = ⟨depth, .outside⟩ := by
      simp [ParenCount.next]
    rw [strokes, allStrokes_eq_map, List.cons_append, List.append_assoc]
    refine ⟨by decide, ?_⟩
    rw [hopen]
    apply indented_intercalate
    · intro part hpart
      obtain ⟨t, ht, rfl⟩ := List.mem_map.1 hpart
      exact ⟨beginsRow_strokes (elements_ok t ht) _, fun _ h => ih t ht _ h⟩
    · intro more hbegins hmore
      rw [gap]
      split
      · exact ⟨by decide, hmore⟩
      · exact ⟨⟨rfl, Nat.succ_pos depth, hbegins⟩, hmore⟩
    · refine ⟨by decide, ?_⟩
      rwa [hclose]

/-- A tree begins a row wherever the layout breaks it. -/
theorem length_rows_strokes (t : Tree) (depth : Nat) :
    (Stroke.rows (t.strokes depth)).2.length = t.breaks := by
  induction t generalizing depth with
  | leaf l pos => rw [strokes, length_rows_chars, breaks]
  | list elements pos ih =>
    have hgap : (elements.length - 1) * (Stroke.rows (gap elements depth)).2.length =
        if fitsOnLine elements then 0 else elements.length - 1 := by
      rw [gap]
      split <;> simp [Stroke.rows]
    have hparts : (elements.map (strokes (depth + 1))).map (fun part => (Stroke.rows part).2.length) =
        elements.map breaks := by
      rw [List.map_map]
      exact List.map_congr_left fun t ht => ih t ht (depth + 1)
    rw [strokes, allStrokes_eq_map, breaks, allBreaks_eq_sum, ← hgap, ← hparts, Stroke.rows,
      length_rows_append, length_rows_intercalate, List.length_map]
    rfl
  | hole => rfl

/-- Indentation is nesting, and nothing else of a printed tree depends on the indent.  No line feed
comes from a leaf.  A tree has a row more than places at which the layout breaks it, and these rows
are the same for every indent: the first as it is, and each other one behind so many times the indent
as there are parentheses open in the rows before it, and beginning neither with a space nor with a
closing parenthesis. -/
theorem indentation_is_nesting {t : Tree} (h : t.Lexable) :
    (∀ l : Leaf, l.Lexable → '\n' ∉ l.render.toList) ∧
    ∃ (first : List Char) (later : List Row),
      later.length = t.breaks ∧
      (∀ r ∈ later, 1 ≤ r.depth ∧ ∃ c ∈ r.content.head?, c ≠ ' ' ∧ c ≠ ')') ∧
      ∀ options : PrintOptions, ∃ text, t.print options = .ok text ∧
        text.toList.splitOn '\n' = first :: later.map (Row.spell options.indent) ∧
        ∀ n r, later[n]? = some r →
          openParens (['\n'].intercalate ((text.toList.splitOn '\n').take (n + 1))) = r.depth := by
  have hindented : Indented ⟨0, .outside⟩ (t.strokes 0) := by
    have hkept : Indented ⟨0, .outside⟩ (t.strokes 0 ++ []) := indented_strokes h 0 trivial
    rwa [List.append_nil] at hkept
  let found := Stroke.rows (t.strokes 0)
  have hrows : ∀ options, (t.render options).toList.splitOn '\n' =
      found.1 :: found.2.map (Row.spell options.indent) := by
    intro options
    rw [render, toList_renderAt]
    exact splitOn_spell hindented options.indent
  refine ⟨fun l hl => hl.not_mem_render, found.1, found.2, t.length_rows_strokes 0, ?_, ?_⟩
  · intro r hr
    obtain ⟨n, hn⟩ := List.getElem?_of_mem hr
    exact (rows_indented hindented 0 n hn).2
  · intro options
    refine ⟨t.render options, h.print_eq options, hrows options, ?_⟩
    intro n r hr
    rw [hrows options]
    exact (rows_indented hindented options.indent n hr).1

/-- A string with a parenthesis and a line feed in it stands in a row of its own, and opens none. -/
theorem indentation_is_nesting_string :
    let t := list [leaf (.symbol "a") .start, leaf (.string "(\n") .start,
      list [list [] .start, leaf (.number "1") .start] .start] .start
    t.Lexable ∧ ∃ (first : List Char) (later : List Row),
      later.length = 3 ∧ (∀ r ∈ later, 1 ≤ r.depth ∧ ∃ c ∈ r.content.head?, c ≠ ' ' ∧ c ≠ ')') ∧
      ∀ options : PrintOptions, ∃ text, t.print options = .ok text ∧
        text.toList.splitOn '\n' = first :: later.map (Row.spell options.indent) ∧
        ∀ n r, later[n]? = some r →
          openParens (['\n'].intercalate ((text.toList.splitOn '\n').take (n + 1))) = r.depth := by
  intro t
  have hsymbol : (Leaf.symbol "a").Lexable :=
    ⟨.mk (by decide) (List.all_eq_true.1 (by decide)) (by decide), by decide⟩
  have hnumber : (Leaf.number "1").Lexable :=
    .inl ⟨by decide, List.all_eq_true.1 (by decide)⟩
  have ht : t.Lexable := by
    refine .list _ (List.forall_mem_cons.2 ⟨.leaf _ hsymbol, List.forall_mem_cons.2
      ⟨.leaf _ trivial, List.forall_mem_singleton.2 (.list _ ?_)⟩⟩)
    exact List.forall_mem_cons.2
      ⟨.list _ (List.forall_mem_nil _), List.forall_mem_singleton.2 (.leaf _ hnumber)⟩
  obtain ⟨-, first, later, hlength, hbegins, hprint⟩ := indentation_is_nesting ht
  exact ⟨ht, first, later, hlength, hbegins, hprint⟩

example :
    render ⟨4⟩ (list [leaf (.symbol "a") .start, leaf (.string "(\n") .start,
      list [list [] .start, leaf (.number "1") .start] .start] .start) =
      "(a\n    \"(\\n\"\n    (()\n        1))" := by
  decide +kernel

end Tree

end CrateNotation
