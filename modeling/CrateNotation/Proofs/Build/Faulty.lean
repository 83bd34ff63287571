import CrateNotation.Proofs.Build.Outcome
import CrateNotation.Proofs.Build.Source
import CrateNotation.Proofs.Schema.Catalogue

/-!
# What can be wrong with a tree

A tree that no node is built from has something wrong with it, or something in it has.  The ways in
which this can be are listed here, each with the fault that is found.  They do not mention how a
node is built, apart from the fields of a list, which are found by its form.

## Main Definitions

* `Tree.Misread` — a fault is found because a tree, or a tree inside it, is something else than is needed
* `Tree.Faulty` — it is one that can be found in a tree at all

## Main Statements

* `Form.misread_of_fieldsOf` — a list whose fields cannot be told apart is misread
* `TagTable.misread_of_select` — and so is one whose tag is none of a table
-/

namespace CrateNotation

open Text (Numeral)

namespace Tree

/-- `t.Misread names e` says that `e` is found where the tree `t`, or a tree inside it, is read as
something else than it is, and that what is needed instead is among `names`.  Only a value that is
needed behind a keyword is named by the keyword. -/
inductive Misread (names : List String) : Tree → Fault → Prop where
  | element {elements : List Tree} {pos : Position} {t : Tree} {e : Fault} (mem : t ∈ elements)
    (misread : Misread names t e) : Misread names (list elements pos) e
  /-- Something else is needed than this tree. -/
  | misplaced {t : Tree} {needed : String} (named : needed ∈ names) :
    Misread names t (.blame needed t)
  /-- A symbol is none of those that are needed. -/
  | wrongSymbol {text needed : String} {pos : Position} (named : needed ∈ names) :
    Misread names (leaf (.symbol text) pos) (.expected needed text pos)
  /-- The text of a number is no numeral. -/
  | noNumeral {text : String} {pos : Position} (named : "valid number" ∈ names)
    (malformed : Numeral.ofText? text.toList = none) :
    Misread names (leaf (.number text) pos) (.expected "valid number" text pos)
  /-- A number has more digits than are worked out. -/
  | tooManyDigits {text : String} {pos : Position} {numeral : Numeral}
    (wellFormed : Numeral.ofText? text.toList = some numeral)
    (long : Numeral.digitLimit < numeral.digits.length) :
    Misread names (leaf (.number text) pos) (.tooManyDigits numeral.digits.length)
  /-- A number is out of the range that is needed. -/
  | outOfRange {text : String} {pos : Position} {numeral : Numeral} {range : IntRange}
    (named : range.describe ∈ names) (wellFormed : Numeral.ofText? text.toList = some numeral)
    (short : numeral.digits.length ≤ Numeral.digitLimit)
    (out : ¬(range.lo ≤ numeral.value ∧ numeral.value ≤ range.hi)) :
    Misread names (leaf (.number text) pos)
      (.expected range.describe (toString numeral.value) pos)
  /-- The last element of a list is a keyword, and there is no value behind it. -/
  | unpaired {before : List Tree} {pos keyPos : Position} {name : String} :
    Misread names (list (before ++ [leaf (.keyword name) keyPos]) pos)
      (.expected s!"value after keyword :{name}" "end of list" keyPos)

/-- `t.Faulty e` says that `e` is a fault of the tree `t`, or of a tree inside it. -/
inductive Faulty : Tree → Fault → Prop where
  /-- Something is wrong with an element of a list. -/
  | element {elements : List Tree} {pos : Position} {t : Tree} {e : Fault} (mem : t ∈ elements)
    (faulty : Faulty t e) : Faulty (list elements pos) e
  /-- Something is needed that is not there. -/
  | misread {names : List String} {t : Tree} {e : Fault} (misread : t.Misread names e) : Faulty t e
  /-- A field is not written that is needed. -/
  | missing {elements : List Tree} {pos : Position} {k : NodeKind} {form : Form k.Value}
    {fields : Fields Part} {name : String} (mem : form ∈ k.forms)
    (written : form.fieldsOf pos (elements.map toPart) = .ok fields)
    (absent : fields.get? name = none) :
    Faulty (list elements pos) (.expected s!":{name} field" "missing" pos)
  /-- The values of the fields do not go together. -/
  | refused {elements : List Tree} {pos : Position} {k : NodeKind} {form : Form k.Value}
    {fields : Fields Part} {values : Values form.fields} {needed found : String}
    (mem : form ∈ k.forms) (written : form.fieldsOf pos (elements.map toPart) = .ok fields)
    (read : (Values.read pos fields form.fields).Returns values)
    (refused : form.refuse values = some (needed, found)) :
    Faulty (list elements pos) (.expected needed found pos)

/-- What is named in some names is named in more. -/
theorem Misread.mono {names more : List String} {t : Tree} {e : Fault} (h : t.Misread names e)
    (hsub : names ⊆ more) : t.Misread more e := by
  induction h with
  | element mem _ ih => exact .element mem ih
  | misplaced named => exact .misplaced (hsub named)
  | wrongSymbol named => exact .wrongSymbol (hsub named)
  | noNumeral named malformed => exact .noNumeral (hsub named) malformed
  | tooManyDigits wellFormed long => exact .tooManyDigits wellFormed long
  | outOfRange named wellFormed short out => exact .outOfRange (hsub named) wellFormed short out
  | unpaired => exact .unpaired

end Tree

/-! ## Reading values -/

/-- Where one check after another fails, it is the first or the second. -/
theorem error_of_bind_eq_error {ε α β : Type} {x : Except ε α} {f : α → Except ε β} {e : ε}
    (h : x >>= f = .error e) : x = .error e ∨ ∃ a, x = .ok a ∧ f a = .error e := by
  cases x with
  | error e' =>
    obtain rfl := Except.error.inj h
    exact .inl rfl
  | ok a => exact .inr ⟨a, rfl, h⟩

namespace Tree

variable {t : Tree} {e : Fault}

theorem misread_of_expectList (h : t.expectList = .error e) : t.Misread ["list"] e := by
  unfold expectList at h
  split at h
  · cases h
  · obtain rfl := Except.error.inj h
    exact .misplaced (List.mem_singleton_self _)

theorem misread_of_expectSymbol (h : t.expectSymbol = .error e) : t.Misread ["symbol"] e := by
  unfold expectSymbol at h
  split at h
  · cases h
  · obtain rfl := Except.error.inj h
    exact .misplaced (List.mem_singleton_self _)

theorem misread_of_expectKeyword (h : t.expectKeyword = .error e) : t.Misread ["keyword"] e := by
  unfold expectKeyword at h
  split at h
  · cases h
  · obtain rfl := Except.error.inj h
    exact .misplaced (List.mem_singleton_self _)

theorem misread_of_expectString (h : t.expectString = .error e) : t.Misread ["string"] e := by
  unfold expectString at h
  split at h
  · cases h
  · obtain rfl := Except.error.inj h
    exact .misplaced (List.mem_singleton_self _)

theorem misread_of_expectNumber (h : t.expectNumber = .error e) :
    t.Misread ["number", "valid number"] e := by
  unfold expectNumber at h
  split at h
  · split at h
    next hnone =>
      obtain rfl := Except.error.inj h
      exact .noNumeral (by simp) hnone
    next numeral hnumeral =>
      split at h
      next hlong =>
        obtain rfl := Except.error.inj h
        exact .tooManyDigits hnumeral hlong
      · cases h
  · obtain rfl := Except.error.inj h
    exact .misplaced (by simp)

/-- A symbol that is expected is at hand. -/
theorem eq_leaf_of_expectSymbol {text : String} {pos : Position}
    (h : t.expectSymbol = .ok (text, pos)) : t = leaf (.symbol text) pos := by
  unfold expectSymbol at h
  split at h
  · obtain ⟨rfl, rfl⟩ := Prod.mk.inj (Except.ok.inj h)
    rfl
  · cases h

theorem eq_list_of_expectList {elements : List Tree} {pos : Position}
    (h : t.expectList = .ok (elements, pos)) : t = list elements pos := by
  unfold expectList at h
  split at h
  · obtain ⟨rfl, rfl⟩ := Prod.mk.inj (Except.ok.inj h)
    rfl
  · cases h

/-- A number that is read is a numeral with digits that are worked out. -/
theorem exists_numeral_of_expectNumber {value : Int} {pos : Position}
    (h : t.expectNumber = .ok (value, pos)) :
    ∃ text numeral, t = leaf (.number text) pos ∧ Numeral.ofText? text.toList = some numeral ∧
      numeral.digits.length ≤ Numeral.digitLimit ∧ numeral.value = value := by
  unfold expectNumber at h
  split at h
  next text p =>
    split at h
    · cases h
    next numeral hnumeral =>
      split at h
      · cases h
      next hshort =>
        obtain ⟨rfl, rfl⟩ := Prod.mk.inj (Except.ok.inj h)
        exact ⟨text, numeral, rfl, hnumeral, Nat.not_lt.1 hshort, rfl⟩
  · cases h

theorem misread_of_expectIn {range : IntRange} (h : t.expectIn range = .error e) :
    t.Misread ["number", "valid number", range.describe] e := by
  unfold expectIn at h
  rcases error_of_bind_eq_error h with hfirst | ⟨⟨value, pos⟩, hnumber, hrest⟩
  · exact (misread_of_expectNumber hfirst).mono (by simp)
  · obtain ⟨text, numeral, rfl, hnumeral, hshort, rfl⟩ := exists_numeral_of_expectNumber hnumber
    change (if _ then _ else _ : Except Fault Int) = _ at hrest
    split at hrest
    · cases hrest
    next hout =>
      obtain rfl := Except.error.inj hrest
      exact .outOfRange (by simp) hnumeral hshort hout

theorem misread_of_expectFlag (h : t.expectFlag = .error e) :
    t.Misread ["symbol", "true or false"] e := by
  unfold expectFlag at h
  rcases error_of_bind_eq_error h with hfirst | ⟨⟨text, pos⟩, hsymbol, hrest⟩
  · exact (misread_of_expectSymbol hfirst).mono (by simp)
  · obtain rfl := eq_leaf_of_expectSymbol hsymbol
    dsimp only at hrest
    split at hrest
    · cases hrest
    · split at hrest
      · cases hrest
      · obtain rfl := Except.error.inj hrest
        exact .wrongSymbol (by simp)

theorem misread_of_expectWord {v : Vocabulary} (h : t.expectWord v = .error e) :
    t.Misread ["symbol", v.listing] e := by
  unfold expectWord at h
  rcases error_of_bind_eq_error h with hfirst | ⟨⟨text, pos⟩, hsymbol, hrest⟩
  · exact (misread_of_expectSymbol hfirst).mono (by simp)
  · obtain rfl := eq_leaf_of_expectSymbol hsymbol
    dsimp only at hrest
    split at hrest
    · cases hrest
    · obtain rfl := Except.error.inj hrest
      exact .wrongSymbol (by simp)

theorem misread_of_expectNothing {what : String} (h : t.expectNothing what = .error e) :
    t.Misread ["list", s!"empty {what} list"] e := by
  unfold expectNothing at h
  rcases error_of_bind_eq_error h with hfirst | ⟨⟨elements, pos⟩, hlist, hrest⟩
  · exact (misread_of_expectList hfirst).mono (by simp)
  · obtain rfl := eq_list_of_expectList hlist
    dsimp only at hrest
    split at hrest
    · cases hrest
    next first more =>
      obtain rfl := Except.error.inj hrest
      exact .element List.mem_cons_self (.misplaced (by simp))

end Tree

/-! ## Reading lists -/

section Lists

variable {elements : List Tree} {pos : Position} {e : Fault}

theorem misread_of_headSymbol {needed : String} (h : headSymbol needed pos elements = .error e) :
    (Tree.list elements pos).Misread [needed] e := by
  unfold headSymbol at h
  split at h
  · obtain rfl := Except.error.inj h
    exact .misplaced (List.mem_singleton_self _)
  · cases h
  · obtain rfl := Except.error.inj h
    exact .element List.mem_cons_self (.misplaced (List.mem_singleton_self _))

/-- A symbol at the head of a list is its first element. -/
theorem eq_cons_of_headSymbol {needed text : String} {p : Position}
    (h : headSymbol needed pos elements = .ok (text, p)) :
    elements = .leaf (.symbol text) p :: elements.tail := by
  unfold headSymbol at h
  split at h
  · cases h
  · obtain ⟨rfl, rfl⟩ := Prod.mk.inj (Except.ok.inj h)
    rfl
  · cases h

theorem mem_of_headSymbol {needed text : String} {p : Position}
    (h : headSymbol needed pos elements = .ok (text, p)) :
    Tree.leaf (.symbol text) p ∈ elements := by
  rw [eq_cons_of_headSymbol h]
  exact List.mem_cons_self

theorem misread_of_expectTag {tag : String} (h : expectTag tag pos elements = .error e) :
    (Tree.list elements pos).Misread [tag] e := by
  unfold expectTag at h
  rcases error_of_bind_eq_error h with hfirst | ⟨⟨text, p⟩, hhead, hrest⟩
  · exact misread_of_headSymbol hfirst
  · dsimp only at hrest
    split at hrest
    · cases hrest
    · obtain rfl := Except.error.inj hrest
      exact .element (mem_of_headSymbol hhead) (.wrongSymbol (List.mem_singleton_self _))

/-- The head of a list that has the expected tag is the symbol for the tag. -/
theorem eq_cons_of_expectTag {tag text : String} {p : Position}
    (h : expectTag tag pos elements = .ok (text, p)) :
    elements = .leaf (.symbol tag) p :: elements.tail := by
  unfold expectTag at h
  obtain ⟨⟨text', p'⟩, hhead, h⟩ := exists_of_bind_eq_ok h
  dsimp only at h
  split at h
  next htag =>
    obtain ⟨rfl, rfl⟩ := Prod.mk.inj (Except.ok.inj h)
    rw [← htag]
    exact eq_cons_of_headSymbol hhead
  next => cases h

theorem TagTable.misread_of_select {β : Type} {table : TagTable β}
    (h : table.select pos elements = .error e) :
    (Tree.list elements pos).Misread [table.expected] e := by
  unfold TagTable.select at h
  rcases error_of_bind_eq_error h with hfirst | ⟨⟨text, p⟩, hhead, hrest⟩
  · exact misread_of_headSymbol hfirst
  · dsimp only at hrest
    split at hrest
    · cases hrest
    · obtain rfl := Except.error.inj hrest
      exact .element (mem_of_headSymbol hhead) (.wrongSymbol (List.mem_singleton_self _))

/-- Elements that make no pairs have one that is no keyword, or end with a keyword. -/
theorem Fields.misread_of_ofElements {before rest : List Tree}
    (h : ofElements Part.tree (rest.map Tree.toPart) = .error e) :
    (Tree.list (before ++ rest) pos).Misread ["keyword"] e := by
  induction rest using lastValue.induct generalizing before with
  | case1 => cases h
  | case2 key =>
    rw [List.map_singleton, ofElements] at h
    rcases error_of_bind_eq_error h with hkey | ⟨⟨name, keyPos⟩, hkey, hrest⟩
    · exact .element (List.mem_append_right _ List.mem_cons_self)
        (Tree.misread_of_expectKeyword hkey)
    · obtain rfl : key = _ := Tree.eq_leaf_of_expectKeyword hkey
      obtain rfl := Except.error.inj hrest
      exact .unpaired
  | case3 key value more ih =>
    rw [List.map_cons, List.map_cons, ofElements] at h
    rcases error_of_bind_eq_error h with hkey | ⟨found, -, hrest⟩
    · exact .element (List.mem_append_right _ List.mem_cons_self)
        (Tree.misread_of_expectKeyword hkey)
    · rcases error_of_bind_eq_error hrest with hmore | ⟨others, -, hpure⟩
      · have hmisread := @ih (before ++ [key, value]) hmore
        rwa [List.append_assoc] at hmisread
      · cases hpure

/-- A list whose fields cannot be told apart is misread. -/
theorem Form.misread_of_fieldsOf {α : Type} {form : Form α}
    (h : form.fieldsOf pos (elements.map Tree.toPart) = .error e) :
    (Tree.list elements pos).Misread [form.tag, "keyword"] e := by
  unfold fieldsOf at h
  rw [Tree.map_tree_map_toPart] at h
  rcases error_of_bind_eq_error h with htag | ⟨tag, htag, hrest⟩
  · exact (misread_of_expectTag htag).mono (by simp)
  · cases elements with
    | nil => cases htag
    | cons head rest =>
      -- A value that may stand without its keyword is no mistake, so the pairs are.
      have hpairs : Fields.ofElements Part.tree (rest.map Tree.toPart) = .error e := by
        revert hrest
        rw [List.map_cons, List.tail_cons]
        rcases form.bare with _ | bare
        · exact id
        · rcases rest with _ | ⟨t, _ | ⟨t', rest⟩⟩
          · exact id
          · intro hrest
            change (if _ then _ else _) = _ at hrest
            split at hrest
            · cases hrest
            · exact hrest
          · exact id
      exact (@Fields.misread_of_ofElements pos e [head] rest hpairs).mono (by simp)

end Lists

end CrateNotation
