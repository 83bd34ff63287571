import CrateNotation.Proofs.Tree.Lexable
import CrateNotation.Tree.Printer

/-!
# Printing and reading back

A lexable tree that is printed and read again is the same tree at other positions, in whatever
layout it was printed.  The lexer is met halfway: `LexesAs` says that a text is lexed as the tokens
of some trees, wherever it stands and whatever delimiter follows it.  Texts with this property may
be put together with blanks between them, and that is how the printer puts them together.

Where the new positions are is left open.  It is enough that resetting them gives the trees that
resetting the old ones gives.

## Main Definitions

* `Delimited` — texts that no name or number goes on with
* `Tree.LexesAs` — texts that are lexed as given trees, up to positions

## Main Statements

* `Tree.lexesAs_renderAt` — the text of a lexable tree is lexed as the tree
* `Tree.allOfText_lexesAs` — and then read as it
* `Tree.print_then_read` — the round trip, for rows of trees
-/

namespace CrateNotation

open Text

/-! ## Trees up to positions -/

namespace Tree

@[simp]
theorem isList_stripPositions (t : Tree) : t.stripPositions.isList = t.isList := by
  cases t <;> rfl

@[simp]
theorem isComplete_stripPositions (t : Tree) : t.stripPositions.isComplete = t.isComplete := by
  induction t with
  | leaf l pos => rfl
  | list elements pos ih =>
    have hall : (elements.map stripPositions).all isComplete = elements.all isComplete := by
      rw [Bool.eq_iff_iff, List.all_eq_true, List.all_eq_true, List.forall_mem_map]
      apply forall₂_congr
      intro t ht
      rw [ih t ht]
    rw [stripPositions, stripAll_eq_map, isComplete, isComplete, areComplete_eq_all,
      areComplete_eq_all, hall]
  | hole => rfl

@[simp]
theorem nesting_stripPositions (t : Tree) : t.stripPositions.nesting = t.nesting := by
  induction t with
  | leaf l pos => rfl
  | list elements pos ih =>
    have hmax : maxNesting (elements.map stripPositions) = maxNesting elements := by
      induction elements with
      | nil => rfl
      | cons t ts ihts =>
        obtain ⟨ht, hts⟩ := List.forall_mem_cons.1 ih
        rw [List.map_cons, maxNesting, maxNesting, ht, ihts hts]
    rw [stripPositions, stripAll_eq_map, nesting, nesting, hmax]
  | hole => rfl

/-- The printer does not look at positions. -/
theorem renderAt_stripPositions (options : PrintOptions) (depth : Nat) (t : Tree) :
    renderAt options depth t.stripPositions = renderAt options depth t := by
  induction t generalizing depth with
  | leaf l pos => rfl
  | list elements pos ih =>
    have hfits : fitsOnLine (elements.map stripPositions) = fitsOnLine elements := by
      have hany : (elements.map stripPositions).any isList = elements.any isList := by
        rw [List.any_map]
        exact List.any_congr rfl isList_stripPositions
      rw [fitsOnLine, fitsOnLine, List.length_map, hany]
    have hparts : (elements.map stripPositions).map (renderAt options (depth + 1)) =
        elements.map (renderAt options (depth + 1)) := by
      rw [List.map_map]
      apply List.map_congr_left
      intro t ht
      exact ih t ht (depth + 1)
    rw [stripPositions, stripAll_eq_map, renderAt, renderAt, renderParts_eq_map,
      renderParts_eq_map, hparts, separator, separator, hfits]
  | hole => rfl

/-- Trees that differ in positions only fit into the same room. -/
theorem FitsIn.congr {room : Int} {s t : Tree} (h : s.stripPositions = t.stripPositions)
    (hs : s.FitsIn room) : t.FitsIn room := by
  rw [FitsIn, ← isComplete_stripPositions, ← nesting_stripPositions] at hs ⊢
  rwa [h] at hs

/-- A lexable tree has no holes. -/
theorem Lexable.isComplete {t : Tree} (h : t.Lexable) : t.isComplete = true := by
  induction h with
  | leaf pos leaf_ok => rfl
  | list pos elements_ok ih =>
    rw [Tree.isComplete, areComplete_eq_all, List.all_eq_true]
    exact ih

end Tree

/-! ## Texts that are lexed as trees -/

/-- A text that no name and no number goes on with. -/
def Delimited (text : List Char) : Prop :=
  ∀ c ∈ text.head?, isSymbolChar c = false

theorem delimited_nil : Delimited [] := by
  intro c hc
  cases hc

theorem delimited_closeParen (rest : List Char) : Delimited (')' :: rest) := by
  intro c hc
  obtain rfl : ')' = c := Option.some.inj hc
  decide

/-- Blanks delimit, and so does what follows when there are none. -/
theorem delimited_blanks {gap rest : List Char} (hgap : ∀ c ∈ gap, isBlank c = true)
    (hne : gap ≠ []) : Delimited (gap ++ rest) := by
  cases gap with
  | nil => exact absurd rfl hne
  | cons d gap =>
    intro c hc
    obtain rfl : d = c := Option.some.inj hc
    exact isSymbolChar_of_isBlank (hgap d List.mem_cons_self)

@[simp]
theorem Leaf.toList_render_keyword (name : String) :
    (keyword name).render.toList = ':' :: name.toList := by
  rw [render, String.toList_append]
  rfl

@[simp]
theorem Leaf.toList_render_string (text : String) :
    (string text).render.toList = '"' :: escape text.toList ++ ['"'] := by
  simp [render]

/-- A lexable leaf is printed as a spelling of a token that the leaf keeps. -/
theorem Leaf.Lexable.spells {l : Leaf} (h : l.Lexable) :
    ∃ kind lexeme, Spells kind lexeme l.render.toList ∧
      ∀ pos, (⟨kind, String.ofList lexeme, pos⟩ : Token).role = .leaf l := by
  cases l with
  | symbol text =>
    refine ⟨.symbol, text.toList, .symbol h, ?_⟩
    intro pos
    simp [Token.role]
  | keyword name =>
    refine ⟨.keyword, name.toList, ?_, ?_⟩
    · rw [toList_render_keyword]
      exact .keyword h
    · intro pos
      simp [Token.role]
  | string text =>
    refine ⟨.string, text.toList, ?_, ?_⟩
    · rw [toList_render_string]
      exact .string (literalBody_escape text.toList)
    · intro pos
      simp [Token.role]
  | number text =>
    refine ⟨.number, text.toList, .number h, ?_⟩
    intro pos
    simp [Token.role]
  | nil => exact ⟨.nil, nilName, .nil, fun pos => rfl⟩

namespace Tree

/-- `LexesAs text trees` says that the text, before any delimiter, is lexed as tokens that leave
the traces of the trees, up to positions. -/
def LexesAs (text : List Char) (trees : List Tree) : Prop :=
  ∀ pos rest, Delimited rest → ∃ (tokens : List Token) (found : List Tree),
    found.map stripPositions = trees.map stripPositions ∧
    tokens.map Token.trace = found.flatMap traces ∧
    lexFrom pos (text ++ rest) = (tokens ++ ·) <$> lexFrom (pos.after text) rest

section LexesAs

variable {text more : List Char} {trees others : List Tree}

theorem lexesAs_nil : LexesAs [] [] := by
  intro pos rest _
  refine ⟨[], [], rfl, rfl, ?_⟩
  simp

/-- Blanks before a text change nothing. -/
theorem LexesAs.blanks_append {gap : List Char} (hgap : ∀ c ∈ gap, isBlank c = true)
    (h : LexesAs text trees) : LexesAs (gap ++ text) trees := by
  intro pos rest hrest
  obtain ⟨tokens, found, hstrip, htraces, hlex⟩ := h (pos.after gap) rest hrest
  refine ⟨tokens, found, hstrip, htraces, ?_⟩
  rw [List.append_assoc, lexFrom_gap pos (isGap_of_blanks hgap), hlex, Position.after_append]

/-- Texts may follow each other if the second delimits the first. -/
theorem LexesAs.append (h : LexesAs text trees) (hmore : LexesAs more others)
    (hdelimits : ∀ rest, Delimited (more ++ rest)) :
    LexesAs (text ++ more) (trees ++ others) := by
  intro pos rest hrest
  obtain ⟨tokens, found, hstrip, htraces, hlex⟩ := h pos (more ++ rest) (hdelimits rest)
  obtain ⟨tokens', found', hstrip', htraces', hlex'⟩ := hmore (pos.after text) rest hrest
  refine ⟨tokens ++ tokens', found ++ found', ?_, ?_, ?_⟩
  · rw [List.map_append, List.map_append, hstrip, hstrip']
  · rw [List.map_append, List.flatMap_append, htraces, htraces']
  · rw [List.append_assoc, hlex, hlex', Position.after_append]
    simp

/-- A lexable leaf is lexed as itself. -/
theorem lexesAs_leaf {l : Leaf} (h : l.Lexable) (at_ : Position) :
    LexesAs l.render.toList [leaf l at_] := by
  intro pos rest hrest
  obtain ⟨kind, lexeme, hspells, hrole⟩ := h.spells
  have hstops : Stops kind rest.head? := stops_of_not_isSymbolChar hrest kind
  let token : Token := ⟨kind, String.ofList lexeme, pos⟩
  have htrace : token.trace = .leaf l pos := Token.trace_eq_leaf_iff.2 ⟨hrole pos, rfl⟩
  refine ⟨[token], [leaf l pos], rfl, ?_, ?_⟩
  · rw [List.map_singleton, htrace]
    rfl
  · rw [lexFrom_spelling pos hspells hstops]
    rfl

/-- Parentheses around the elements of a list make the list. -/
theorem LexesAs.parens (h : LexesAs text trees) (at_ : Position) :
    LexesAs ('(' :: text ++ [')']) [list trees at_] := by
  intro pos rest _
  -- The closing parenthesis delimits the elements, so nothing need be known of what follows it.
  obtain ⟨tokens, found, hstrip, htraces, hlex⟩ :=
    h (pos.after ['(']) (')' :: rest) (delimited_closeParen rest)
  let first : Token := ⟨.openParen, "(", pos⟩
  let last : Token := ⟨.closeParen, ")", (pos.after ['(']).after text⟩
  refine ⟨first :: tokens ++ [last], [list found pos], ?_, ?_, ?_⟩
  · simp only [List.map_singleton, stripPositions, stripAll_eq_map, hstrip]
  · simp only [List.map_append, List.map_cons, htraces, List.flatMap_singleton, traces,
      allTraces_eq_flatMap]
    rfl
  · have hopen : lexFrom pos ('(' :: (text ++ ')' :: rest)) =
        (first :: ·) <$> lexFrom (pos.after ['(']) (text ++ ')' :: rest) :=
      lexFrom_spelling pos .openParen trivial
    have hclose : lexFrom ((pos.after ['(']).after text) (')' :: rest) =
        (last :: ·) <$> lexFrom (((pos.after ['(']).after text).after [')']) rest :=
      lexFrom_spelling _ .closeParen trivial
    have hafter : pos.after ('(' :: text ++ [')']) =
        ((pos.after ['(']).after text).after [')'] := by
      rw [← Position.after_append, ← Position.after_append]
      rfl
    have htext : '(' :: text ++ [')'] ++ rest = '(' :: (text ++ ')' :: rest) := by simp
    rw [htext, hopen, hlex, hclose, hafter]
    simp

/-- Texts may be joined by blanks. -/
theorem lexesAs_intercalate {α : Type} {part : α → List Char} {tree : α → Tree} {gap : List Char}
    (hgap : ∀ c ∈ gap, isBlank c = true) (hne : gap ≠ []) {items : List α}
    (h : ∀ i ∈ items, LexesAs (part i) [tree i]) :
    LexesAs (gap.intercalate (items.map part)) (items.map tree) := by
  induction items with
  | nil => exact lexesAs_nil
  | cons i items ih =>
    obtain ⟨hi, hitems⟩ := List.forall_mem_cons.1 h
    cases items with
    | nil =>
      rw [List.map_singleton, List.map_singleton, List.intercalate_singleton]
      exact hi
    | cons j items =>
      -- The blanks go with what follows them, so that they delimit what is before.
      have hrest := (ih hitems).blanks_append hgap
      have hdelimits : ∀ rest, Delimited
          (gap ++ gap.intercalate ((j :: items).map part) ++ rest) := by
        intro rest
        rw [List.append_assoc]
        exact delimited_blanks hgap hne
      rw [List.map_cons, List.map_cons, List.map_cons, List.intercalate_cons_cons,
        List.append_assoc]
      exact hi.append hrest hdelimits

/-- What separates the elements of a list is blank. -/
theorem isBlank_of_mem_separator {options : PrintOptions} {elements : List Tree} {depth : Nat} :
    ∀ c ∈ (separator options elements depth).toList, isBlank c = true := by
  rw [separator]
  split
  · exact List.all_eq_true.1 (by decide)
  · rw [String.toList_append]
    intro c hc
    rcases List.mem_append.1 hc with hc | hc
    · obtain rfl : c = '\n' := by simpa using hc
      decide
    · rw [String.toList_ofList] at hc
      obtain rfl := List.eq_of_mem_replicate hc
      decide

/-- Two elements are never run together. -/
theorem separator_ne_nil (options : PrintOptions) (elements : List Tree) (depth : Nat) :
    (separator options elements depth).toList ≠ [] := by
  rw [separator]
  split <;> simp

/-- The text of a lexable tree is lexed as the tree. -/
theorem lexesAs_renderAt (options : PrintOptions) (depth : Nat) {t : Tree} (h : t.Lexable) :
    LexesAs (renderAt options depth t).toList [t] := by
  induction h generalizing depth with
  | leaf pos leaf_ok => exact lexesAs_leaf leaf_ok pos
  | @list elements pos elements_ok ih =>
    -- One line or several, the elements are joined by the same separator.
    have hparts : LexesAs ((separator options elements depth).toList.intercalate
        (elements.map fun t => (renderAt options (depth + 1) t).toList)) (elements.map id) := by
      apply lexesAs_intercalate isBlank_of_mem_separator (separator_ne_nil _ _ _)
      intro t ht
      exact ih t ht (depth + 1)
    have htext : (renderAt options depth (list elements pos)).toList =
        '(' :: (separator options elements depth).toList.intercalate
          (elements.map fun t => (renderAt options (depth + 1) t).toList) ++ [')'] := by
      rw [renderAt, renderParts_eq_map, String.toList_append, String.toList_append,
        String.toList_intercalate, List.map_map]
      rfl
    rw [List.map_id] at hparts
    rw [htext]
    exact hparts.parens pos

end LexesAs

/-! ## The round trip -/

section RoundTrip

variable {options : ReadOptions} {text : String} {trees : List Tree}

/-- A text that is lexed as trees that nest within the limit is read as these trees, up to
positions. -/
theorem allOfText_lexesAs (h : LexesAs text.toList trees)
    (hfits : ∀ t ∈ trees, t.FitsIn options.maxDepth) :
    ∃ found, allOfText options text = .ok found ∧
      found.map stripPositions = trees.map stripPositions ∧
      ∀ t, found = [t] → ofText options text = .ok t := by
  obtain ⟨tokens, found, hstrip, htraces, hlex⟩ := h .start [] delimited_nil
  let eof : Token := ⟨.endOfInput, "", Position.start.after text.toList⟩
  have htokens : Token.ofText text = .ok (tokens ++ [eof]) := by
    rw [List.append_nil, lexFrom] at hlex
    exact hlex
  -- The trees that are found are others, but nest as deep as those that were asked for.
  have hfound : ∀ t ∈ found, t.FitsIn options.maxDepth := by
    intro t ht
    have hmem : t.stripPositions ∈ trees.map stripPositions := by
      rw [← hstrip]
      exact List.mem_map_of_mem ht
    obtain ⟨s, hs, hst⟩ := List.mem_map.1 hmem
    exact (hfits s hs).congr hst
  refine ⟨found, ?_, hstrip, ?_⟩
  · rw [allOfText, htokens]
    exact congrArg Prod.fst (readAll_of_traces hfound htraces rfl)
  · rintro t rfl
    obtain ⟨hcomplete, hnesting⟩ := hfound t List.mem_cons_self
    rw [List.flatMap_singleton] at htraces
    have hread : read options.maxDepth 0 (tokens ++ [eof]) = (.ok t, [eof]) := by
      apply readOn_of_traces hcomplete htraces
      simpa using hnesting
    rw [ofText, htokens]
    exact congrArg Prod.fst (readFirst_of_read rfl hread)

/-- What is read from a text nests within the limit. -/
theorem nesting_le_of_ofText {t : Tree} (h : ofText options text = .ok t) :
    t.nesting ≤ options.maxDepth := by
  rw [ofText] at h
  split at h
  · cases h
  next tokens htokens =>
    obtain ⟨rest, hread⟩ := read_of_readFirst h
    obtain ⟨-, -, -, hfits⟩ := traces_of_read (Int.natCast_nonneg _) hread
    exact Int.ofNat_le.1 hfits.2

/-- The text of a lexable tree is read as the tree, up to positions. -/
theorem ofText_render (p : PrintOptions) {t : Tree} (h : t.Lexable)
    (hnesting : t.nesting ≤ options.maxDepth) :
    ∃ found, ofText options (t.render p) = .ok found ∧
      allOfText options (t.render p) = .ok [found] ∧
      found.stripPositions = t.stripPositions := by
  have hfits : ∀ s ∈ [t], s.FitsIn options.maxDepth := by
    intro s hs
    obtain rfl := List.mem_singleton.1 hs
    exact ⟨h.isComplete, Int.ofNat_le.2 hnesting⟩
  obtain ⟨found, hread, hstrip, hfirst⟩ := allOfText_lexesAs (lexesAs_renderAt p 0 h) hfits
  obtain ⟨s, rfl, hs⟩ := List.map_eq_singleton_iff.1 hstrip
  exact ⟨s, hfirst s rfl, hread, hs⟩

/-- Lexable trees with the same text, even in different layouts, are the same up to positions. -/
theorem stripPositions_eq_of_render_eq {p q : PrintOptions} {a b : Tree} (ha : a.Lexable)
    (hb : b.Lexable) (h : a.render p = b.render q) : a.stripPositions = b.stripPositions := by
  -- With a limit high enough for both, each is what the text of both is read as.
  let deep : ReadOptions := { maxDepth := max a.nesting b.nesting + 1, maxDepth_pos := by omega }
  have hda : a.nesting ≤ deep.maxDepth := by
    show a.nesting ≤ max a.nesting b.nesting + 1
    omega
  have hdb : b.nesting ≤ deep.maxDepth := by
    show b.nesting ≤ max a.nesting b.nesting + 1
    omega
  obtain ⟨s, -, hs, hsa⟩ := ofText_render p ha hda
  obtain ⟨t, -, ht, htb⟩ := ofText_render q hb hdb
  rw [h, ht] at hs
  obtain rfl : t = s := by simpa using hs
  rw [← hsa, htb]

/-- A lexable tree can be printed. -/
theorem Lexable.print_eq {t : Tree} (h : t.Lexable) (p : PrintOptions) :
    t.print p = .ok (t.render p) :=
  if_pos h.isComplete

end RoundTrip

/-- Printing and then reading is the identity up to positions.  What is read from a text is
lexable.  Lexable trees, each printed with an indent of its own, on lines of their own, are read
back as the same trees, if none of them nests too deep; a single one is also read back as the first
tree of its text.  So lexable trees have the same text exactly if they are the same up to
positions. -/
theorem print_then_read :
    (∀ (options : ReadOptions) (text : String),
      (∀ t, ofText options text = .ok t → t.Lexable) ∧
      (∀ ts, allOfText options text = .ok ts → ∀ t ∈ ts, t.Lexable)) ∧
    (∀ (options : ReadOptions) (items : List (Tree × PrintOptions)),
      (∀ i ∈ items, i.1.Lexable ∧ i.1.nesting ≤ options.maxDepth) →
        ∃ texts found,
          items.map (fun i => i.1.print i.2) = texts.map .ok ∧
          allOfText options ("\n".intercalate texts) = .ok found ∧
          found.map stripPositions = items.map (fun i => i.1.stripPositions) ∧
          ∀ t, found = [t] → ∀ requireEnd,
            ofText { options with requireEnd := requireEnd } ("\n".intercalate texts) = .ok t) ∧
    (∀ (p : PrintOptions) (a b : Tree), a.Lexable → b.Lexable →
      (a.print p = b.print p ↔ a.stripPositions = b.stripPositions)) := by
  refine ⟨?_, ?_, ?_⟩
  · intro options text
    exact ⟨fun t => lexable_of_ofText, fun ts => lexable_of_allOfText⟩
  · intro options items hitems
    let texts := items.map fun i => i.1.render i.2
    have hlexes : LexesAs ("\n".intercalate texts).toList (items.map Prod.fst) := by
      have hblank : ∀ c ∈ "\n".toList, isBlank c = true := List.all_eq_true.1 (by decide)
      rw [String.toList_intercalate, List.map_map]
      apply lexesAs_intercalate hblank (by decide)
      intro i hi
      exact lexesAs_renderAt i.2 0 (hitems i hi).1
    have hfits : ∀ t ∈ items.map Prod.fst, t.FitsIn options.maxDepth := by
      intro t ht
      obtain ⟨i, hi, rfl⟩ := List.mem_map.1 ht
      obtain ⟨hlexable, hnesting⟩ := hitems i hi
      exact ⟨hlexable.isComplete, Int.ofNat_le.2 hnesting⟩
    obtain ⟨found, hread, hstrip, hfirst⟩ := allOfText_lexesAs hlexes hfits
    refine ⟨texts, found, ?_, hread, ?_, ?_⟩
    · rw [List.map_map]
      apply List.map_congr_left
      intro i hi
      exact (hitems i hi).1.print_eq i.2
    · rw [hstrip, List.map_map]
      rfl
    · -- Whether the end is required is no matter to reading all trees, so the same ones are found.
      intro t ht requireEnd
      obtain ⟨found', hread', -, hfirst'⟩ :=
        @allOfText_lexesAs { options with requireEnd := requireEnd } _ _ hlexes hfits
      have hsame : found' = found := by
        have h : allOfText options ("\n".intercalate texts) = .ok found' := hread'
        rw [hread] at h
        exact (Except.ok.inj h).symm
      exact hfirst' t (hsame.trans ht)
  · intro p a b ha hb
    rw [ha.print_eq, hb.print_eq]
    constructor
    · intro h
      exact stripPositions_eq_of_render_eq ha hb (Except.ok.inj h)
    · intro h
      rw [render, render, ← renderAt_stripPositions, h, renderAt_stripPositions]

/-- A symbol and a list that holds a string with a line feed, printed on two lines with different
indents, are read back. -/
theorem print_then_read_pair :
    let items : List (Tree × PrintOptions) :=
      [(leaf (.symbol "-x") .start, ⟨0⟩),
        (list [leaf (.string "a\n\"") .start, leaf (.number "-1") .start] .start, ⟨4⟩)]
    (∀ i ∈ items, i.1.Lexable ∧ i.1.nesting ≤ ({} : ReadOptions).maxDepth) ∧
      ∃ texts found,
        items.map (fun i => i.1.print i.2) = texts.map .ok ∧
        allOfText {} ("\n".intercalate texts) = .ok found ∧
        found.map stripPositions = items.map (fun i => i.1.stripPositions) := by
  intro items
  have hsymbol : IsSymbol "-x".toList := by
    refine ⟨.mk (by decide) (List.all_eq_true.1 (by decide)) ?_, by decide⟩
    intro _ d hd
    obtain rfl : 'x' = d := Option.some.inj hd
    decide
  have hnumber : IsNumber "-1".toList :=
    .inr ⟨['1'], rfl, by decide, List.all_eq_true.1 (by decide)⟩
  have hitems : ∀ i ∈ items, i.1.Lexable ∧ i.1.nesting ≤ ({} : ReadOptions).maxDepth := by
    refine List.forall_mem_cons.2 ⟨⟨.leaf _ hsymbol, by decide⟩, ?_⟩
    refine List.forall_mem_cons.2 ⟨⟨.list _ ?_, by decide⟩, by simp⟩
    intro t ht
    rcases List.mem_cons.1 ht with rfl | ht
    · exact .leaf _ trivial
    · obtain rfl := List.mem_singleton.1 ht
      exact .leaf _ hnumber
  obtain ⟨texts, found, hprint, hread, hstrip, -⟩ := print_then_read.2.1 {} items hitems
  exact ⟨hitems, texts, found, hprint, hread, hstrip⟩

end Tree

end CrateNotation
