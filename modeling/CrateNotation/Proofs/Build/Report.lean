import CrateNotation.Proofs.Build.Failure
import CrateNotation.Proofs.Build.Pairing
import CrateNotation.Proofs.Build.Script

/-!
# What a builder reports

An error that stops a build says what was found instead of what was needed.  What it says is true of
the tree that it is blamed on: that is the tree itself as messages call it, or the text or the value
of the leaf that it is, or what is wrong with the list that it is.

Two reports are about more than the tree that is blamed.  A keyword is the end of its list only if it
is the last element there, and a field is missing only if its keyword stands in no place of a key.

## Main Definitions

* `HasKey` — a keyword stands in the place of a key
* `IsBound` — the value that a span has for a bound
* `Tree.Reports`, `Tree.IsReported` — what an error says of a tree is true

## Main Statements

* `Tree.Faulty.isReported` — what is wrong with a tree is reported truly
* `Tree.build_reports` — a builder reports what it finds at a tree that is there
-/

namespace CrateNotation

open Text (Numeral)

/-! ## What can be reported -/

/-- The keyword with a given name stands in the place of a key among the elements of a list: keys
and values take turns behind the tag. -/
def HasKey (elements : List Tree) (name : String) : Prop :=
  ∃ (i : Nat) (pos : Position), elements[2 * i + 1]? = some (.leaf (.keyword name) pos)

/-- A span whose elements behind the tag are `rest` has the value `value` for a bound: that of the
number that counts for the keyword, or zero where there is none. -/
def IsBound (name : String) (rest : List Tree) (value : Int) : Prop :=
  match lastValue id name rest with
  | none => value = 0
  | some t => ∃ text pos numeral, t = .leaf (.number text) pos ∧
      Numeral.ofText? text.toList = some numeral ∧ numeral.value = value

namespace Tree

/-- `t.Reports x needed found` says that an error in `t` is true that is blamed on the tree `x` and
says that `found` was found there instead of `needed`. -/
inductive Reports (t : Tree) : Tree → String → String → Prop where
  /-- A tree is found. -/
  | described {x : Tree} {needed found : String} (description : x.describe? = some found) :
    Reports t x needed found
  /-- The text of a symbol is found. -/
  | symbolText {text needed : String} {pos : Position} :
    Reports t (leaf (.symbol text) pos) needed text
  /-- The text of a number is found. -/
  | numberText {text needed : String} {pos : Position} :
    Reports t (leaf (.number text) pos) needed text
  /-- The value of a number is found. -/
  | numberValue {text needed : String} {pos : Position} {numeral : Numeral}
    (wellFormed : Numeral.ofText? text.toList = some numeral) :
    Reports t (leaf (.number text) pos) needed (toString numeral.value)
  /-- Nothing is found behind a keyword, which is the last element of its list. -/
  | endOfList {before : List Tree} {name needed : String} {pos listPos : Position}
    (occurs : OccursIn (list (before ++ [leaf (.keyword name) pos]) listPos) t) :
    Reports t (leaf (.keyword name) pos) needed "end of list"
  /-- A field is missing in a list, and its keyword is none of the keys there. -/
  | missing {elements : List Tree} {pos : Position} {name : String}
    (absent : ¬HasKey elements name) :
    Reports t (list elements pos) s!":{name} field" "missing"
  /-- A span runs backwards. -/
  | backwards {rest : List Tree} {tagPos pos : Position} {lo hi : Int} {needed : String}
    (lo_bound : IsBound "lo" rest lo) (hi_bound : IsBound "hi" rest hi) (backwards : hi < lo) :
    Reports t (list (leaf (.symbol "Span") tagPos :: rest) pos) needed s!"lo {lo}, hi {hi}"

/-- What is true of an error in an element is true of it in the list. -/
theorem Reports.element {elements : List Tree} {pos : Position} {t x : Tree}
    {needed found : String} (h : t.Reports x needed found) (mem : t ∈ elements) :
    (list elements pos).Reports x needed found := by
  cases h with
  | described description => exact .described description
  | symbolText => exact .symbolText
  | numberText => exact .numberText
  | numberValue wellFormed => exact .numberValue wellFormed
  | endOfList occurs => exact .endOfList (.element mem occurs)
  | missing absent => exact .missing absent
  | backwards lo_bound hi_bound hlt => exact .backwards lo_bound hi_bound hlt

end Tree

/-! ## Missing fields -/

/-- A field that is not found among pairs that are in order has its keyword in no place of a key. -/
theorem Fields.getElem?_ne_of_ofElements {β : Type} {tree : β → Tree} {rest : List β}
    {fields : Fields β} {name : String} (h : ofElements tree rest = .ok fields)
    (hnone : fields.get? name = none) (i : Nat) (pos : Position) :
    (rest.map tree)[2 * i]? ≠ some (.leaf (.keyword name) pos) := by
  intro hrow
  rw [List.getElem?_map, Option.map_eq_some_iff] at hrow
  obtain ⟨key, hrow, hkey⟩ := hrow
  obtain ⟨value, hvalue⟩ :=
    mem_names_iff.1 (((reads_of_ofElements h).mem_names name).2 ⟨i, key, pos, hrow, hkey⟩)
  rw [hnone] at hvalue
  cases hvalue

/-- The fields of a list are pairs, unless a list stands alone behind the tag. -/
theorem Form.ofElements_of_fieldsOf {α : Type} {form : Form α} {pos : Position} {parts : List Part}
    {fields : Fields Part} (h : form.fieldsOf pos parts = .ok fields) :
    Fields.ofElements Part.tree parts.tail = .ok fields ∨
      ∃ p, parts.tail = [p] ∧ p.tree.isList = true := by
  unfold fieldsOf at h
  obtain ⟨tag, -, h⟩ := exists_of_bind_eq_ok h
  revert h
  rcases form.bare with _ | bare
  · exact .inl
  · rcases parts.tail with _ | ⟨p, _ | ⟨q, rest⟩⟩
    · exact .inl
    · intro h
      change (if _ then _ else _) = _ at h
      split at h
      next hlist => exact .inr ⟨p, rfl, hlist⟩
      next => exact .inl h
    · exact .inl

/-- A field that is not found in a list has its keyword in no place of a key. -/
theorem not_hasKey_of_fieldsOf {α : Type} {form : Form α} {pos : Position} {elements : List Tree}
    {fields : Fields Part} {name : String}
    (h : form.fieldsOf pos (elements.map Tree.toPart) = .ok fields)
    (hnone : fields.get? name = none) : ¬HasKey elements name := by
  rintro ⟨i, keyPos, hkey⟩
  have htail : elements.tail[2 * i]? = some (.leaf (.keyword name) keyPos) := by
    rw [List.getElem?_tail]
    exact hkey
  rw [← Tree.map_tree_map_toPart elements.tail, List.map_tail] at htail
  rcases Form.ofElements_of_fieldsOf h with hpairs | ⟨p, halone, hlist⟩
  · exact Fields.getElem?_ne_of_ofElements hpairs hnone i keyPos htail
  · -- The element that stands alone is no keyword.
    rw [halone, List.map_singleton, List.getElem?_singleton] at htail
    split at htail
    · rw [Option.some.inj htail] at hlist
      cases hlist
    · cases htail

/-! ## Spans that run backwards -/

/-- A list that is read in a form has the tag of the form at its head. -/
theorem Form.exists_head_of_fieldsOf {α : Type} {form : Form α} {pos : Position}
    {elements : List Tree} {fields : Fields Part}
    (h : form.fieldsOf pos (elements.map Tree.toPart) = .ok fields) :
    ∃ tagPos, elements = .leaf (.symbol form.tag) tagPos :: elements.tail := by
  unfold fieldsOf at h
  rw [Tree.map_tree_map_toPart] at h
  obtain ⟨⟨text, tagPos⟩, htag, -⟩ := exists_of_bind_eq_ok h
  exact ⟨tagPos, eq_cons_of_expectTag htag⟩

/-- Only spans are ever refused. -/
theorem NodeKind.refuse_eq_none_or_span (k : NodeKind) :
    ∀ form ∈ k.forms, form.refuse = (fun _ => none) ∨
      (⟨k, form⟩ : (k : NodeKind) × Form k.Value) = ⟨.span, .span⟩ := by
  cases k
  case span => exact List.forall_mem_singleton.2 (.inr rfl)
  all_goals
    repeat
      first
        | exact List.forall_mem_nil _
        | exact List.forall_mem_cons.2 ⟨.inl rfl, List.forall_mem_nil _⟩
        | refine List.forall_mem_cons.2 ⟨.inl rfl, ?_⟩

/-- The values of fields are the value of the first and those of the others. -/
theorem Values.returns_of_cons {pos : Position} {fields : Fields Part} {f : Field} {fs : List Field}
    {values : Values (f :: fs)} (h : (Values.read pos fields (f :: fs)).Returns values) :
    (f.read pos fields).Returns values.1 ∧ (Values.read pos fields fs).Returns values.2 := by
  rw [read] at h
  obtain ⟨value, hvalue, h⟩ := h.exists_of_bind
  obtain ⟨more, hmore, h⟩ := h.exists_of_bind
  obtain rfl := h.eq_of_pure
  exact ⟨hvalue, hmore⟩

/-- A number that is accepted in a range is a numeral with its value. -/
theorem Tree.exists_numeral_of_expectIn {range : IntRange} {t : Tree} {value : Int}
    (h : t.expectIn range = .ok value) :
    ∃ text pos numeral, t = leaf (.number text) pos ∧
      Numeral.ofText? text.toList = some numeral ∧ numeral.value = value := by
  unfold expectIn at h
  obtain ⟨⟨n, pos⟩, hnumber, h⟩ := exists_of_bind_eq_ok h
  obtain ⟨text, numeral, rfl, hnumeral, -, rfl⟩ := exists_numeral_of_expectNumber hnumber
  change (if _ then _ else _ : Except Fault Int) = _ at h
  split at h
  · obtain rfl := Except.ok.inj h
    exact ⟨text, pos, numeral, rfl, hnumeral, rfl⟩
  · cases h

/-- A bound of a span is read as the value that the span has for it. -/
theorem isBound_of_returns {pos : Position} {fields : Fields Part} {name : String} {value : Int}
    {rest : List Tree} (hget : fields.get? name = (lastValue id name rest).map Tree.toPart)
    (h : ((Field.bound name).read pos fields).Returns value) : IsBound name rest value := by
  rw [Field.read, hget] at h
  unfold IsBound
  cases hvalue : lastValue id name rest with
  | none =>
    rw [hvalue] at h
    exact h.eq_of_pure.symm
  | some t =>
    rw [hvalue] at h
    have hin : t.expectIn ⟨name, 0, maxIndex⟩ = .ok value := h.eq_of_ofExcept
    exact Tree.exists_numeral_of_expectIn hin

namespace Tree

/-- A span that is refused runs backwards. -/
theorem reports_of_refuse_span {elements : List Tree} {pos : Position} {fields : Fields Part}
    {values : Values Form.span.fields} {needed found : String}
    (hfields : Form.span.fieldsOf pos (elements.map toPart) = .ok fields)
    (hvalues : (Values.read pos fields Form.span.fields).Returns values)
    (hrefuse : Form.span.refuse values = some (needed, found)) (t : Tree) :
    t.Reports (list elements pos) needed found := by
  obtain ⟨tagPos, hhead⟩ : ∃ tagPos, elements = leaf (.symbol "Span") tagPos :: elements.tail :=
    Form.exists_head_of_fieldsOf hfields
  generalize elements.tail = rest at hhead
  subst hhead
  have hget : ∀ name, fields.get? name = (lastValue id name rest).map toPart :=
    get?_of_fieldsOf_toPart hfields
  obtain ⟨hlo, hmore⟩ := Values.returns_of_cons hvalues
  obtain ⟨hhi, -⟩ := Values.returns_of_cons hmore
  obtain ⟨lo, hi, ctxt, ⟨⟩⟩ := values
  have hlo : IsBound "lo" rest lo := isBound_of_returns (hget "lo") hlo
  have hhi : IsBound "hi" rest hi := isBound_of_returns (hget "hi") hhi
  change (if _ then _ else _ : Option (String × String)) = _ at hrefuse
  split at hrefuse
  next hlt =>
    obtain ⟨rfl, rfl⟩ := Prod.mk.inj (Option.some.inj hrefuse)
    exact .backwards hlo hhi hlt
  next => cases hrefuse

/-- What is expected instead of a tree is expected where the tree is, and the tree is described. -/
theorem exists_of_blame {t : Tree} {needed : String} {e : ParseError}
    (h : .invalid e = Fault.blame needed t) :
    ∃ found pos, e = .expected needed found pos ∧ t.describe? = some found ∧ t.pos? = some pos := by
  unfold Fault.blame at h
  split at h
  next found pos hdescribe hpos =>
    obtain rfl := Fault.invalid.inj h
    exact ⟨found, pos, rfl, hdescribe, hpos⟩
  · cases h

/-- An error says what was found in a tree instead of what was needed, and this is true of a tree that
stands in it. -/
def IsReported (t : Tree) (e : ParseError) : Prop :=
  ∃ needed found pos, ∃ x : Tree, e = .expected needed found pos ∧
    x.OccursIn t ∧ x.pos? = some pos ∧ t.Reports x needed found

theorem IsReported.element {elements : List Tree} {pos : Position} {t : Tree} {e : ParseError}
    (h : t.IsReported e) (mem : t ∈ elements) : (list elements pos).IsReported e := by
  obtain ⟨needed, found, errorPos, x, he, hoccurs, hpos, hreports⟩ := h
  exact ⟨needed, found, errorPos, x, he, .element mem hoccurs, hpos, hreports.element mem⟩

/-- What is needed instead of a tree is reported of the tree itself, or of a tree in it. -/
theorem Misread.isReported {names : List String} {t : Tree} {e : ParseError}
    (h : t.Misread names (.invalid e)) : t.IsReported e := by
  generalize hfault : Fault.invalid e = fault at h
  induction h with
  | element mem _ ih => exact (ih hfault).element mem
  | @misplaced t needed =>
    obtain ⟨found, pos, he, hdescribe, hpos⟩ := exists_of_blame hfault
    exact ⟨needed, found, pos, t, he, .self, hpos, .described hdescribe⟩
  | wrongSymbol =>
    cases hfault
    exact ⟨_, _, _, _, rfl, .self, rfl, .symbolText⟩
  | noNumeral =>
    cases hfault
    exact ⟨_, _, _, _, rfl, .self, rfl, .numberText⟩
  | tooManyDigits => cases hfault
  | outOfRange _ wellFormed =>
    cases hfault
    exact ⟨_, _, _, _, rfl, .self, rfl, .numberValue wellFormed⟩
  | @unpaired before pos keyPos name =>
    cases hfault
    have hlast : leaf (.keyword name) keyPos ∈ before ++ [leaf (.keyword name) keyPos] :=
      List.mem_append_right before List.mem_cons_self
    exact ⟨_, _, _, _, rfl, .element hlast .self, rfl, .endOfList .self⟩

/-- Whatever is wrong with a tree is reported. -/
theorem Faulty.isReported {t : Tree} {e : ParseError} (h : t.Faulty (.invalid e)) :
    t.IsReported e := by
  generalize hfault : Fault.invalid e = fault at h
  induction h with
  | element mem _ ih => exact (ih hfault).element mem
  | misread misread =>
    subst hfault
    exact misread.isReported
  | missing mem written absent =>
    cases hfault
    exact ⟨_, _, _, _, rfl, .self, rfl, .missing (not_hasKey_of_fieldsOf written absent)⟩
  | @refused elements pos k form fields values needed found mem written read refused =>
    cases hfault
    refine ⟨_, _, _, _, rfl, .self, rfl, ?_⟩
    rcases k.refuse_eq_none_or_span form mem with hnone | hspan
    · rw [hnone] at refused
      cases refused
    · cases hspan
      exact reports_of_refuse_span written read refused _

/-- An error of the notation that stops a build is found in the tree. -/
theorem faulty_of_runFrom {t : Tree} {k : NodeKind} {start stop : Int} {e : ParseError}
    (hstart : 0 ≤ start) (h : (t.build k).runFrom start = (.error (.invalid e), stop)) :
    t.Faulty (.invalid e) :=
  (yields_build t k).of_runFrom (t.isScripted_build k) hstart h nofun

/-- An error that says what a build found instead of what was needed is blamed on a tree that stands
in the tree that is built from, and has the position of that tree.  What it says of this tree is
true, whatever node was to be built and however many ids had been issued before. -/
theorem build_reports {t : Tree} {k : NodeKind} {start stop : Int} {needed found : String}
    {pos : Position} (hstart : 0 ≤ start)
    (h : (t.build k).runFrom start = (.error (.invalid (.expected needed found pos)), stop)) :
    ∃ x : Tree, x.OccursIn t ∧ x.pos? = some pos ∧ t.Reports x needed found := by
  obtain ⟨needed, found, pos, x, herror, hx⟩ := (faulty_of_runFrom hstart h).isReported
  cases herror
  exact ⟨x, hx⟩

/-- The second bound of a span is written twice, and the value that counts is too small. -/
theorem build_reports_backwards :
    let t := list
      [leaf (.symbol "Span") ⟨1, 1, 2⟩, leaf (.keyword "lo") ⟨6, 1, 7⟩,
        leaf (.number "3") ⟨10, 1, 11⟩, leaf (.keyword "hi") ⟨12, 1, 13⟩,
        leaf (.number "9") ⟨16, 1, 17⟩, leaf (.keyword "hi") ⟨18, 1, 19⟩,
        leaf (.number "002") ⟨22, 1, 23⟩] ⟨0, 1, 1⟩
    let e : Fault := .expected "span with lo <= hi" "lo 3, hi 2" ⟨0, 1, 1⟩
    (t.build .span).runFrom 5 = (.error e, 5) ∧
      ∃ x : Tree, x.OccursIn t ∧ x.pos? = some ⟨0, 1, 1⟩ ∧
        t.Reports x "span with lo <= hi" "lo 3, hi 2" := by
  intro t e
  have hbuild : (t.build .span).runFrom 5 = (.error e, 5) := by rfl
  exact ⟨hbuild, build_reports (by decide) hbuild⟩

end Tree

end CrateNotation
