import CrateNotation.Proofs.Build.Faulty
import CrateNotation.Proofs.Build.Report
import CrateNotation.Proofs.Text.OneLine

/-!
# What a builder needs

What a builder needs instead of what it finds is named by the schema: by a tag or the tags of a table,
by the words of a vocabulary, by a range of integers or by the keyword of a field.  All these names
are on one line.  Only a value behind a keyword is named by the keyword that is written, and this is on
one line if it comes from a text.

## Main Definitions

* `Form.needed` — what is needed in a list in a form
* `Fault.NeedsOneLine` — what is needed is named on one line

## Main Statements

* `NodeKind.oneLine_needed` — what the forms of the notation need is named on one line
* `Tree.needsOneLine_build` — and so is what is needed where a tree that can be written has a fault
-/

namespace CrateNotation

open Build

/-- If the fault is that something else is needed, this is named on one line. -/
def Fault.NeedsOneLine : Fault → Prop
  | invalid (.expected needed _ _) => OneLine needed
  | invalid _ | tooManyDigits _ | idsExhausted | hole => True

theorem Fault.needsOneLine_blame {needed : String} (h : OneLine needed) (t : Tree) :
    (blame needed t).NeedsOneLine := by
  unfold blame
  split
  · exact h
  · trivial

/-- What is needed instead of a tree that is misread is named on one line, if the names are on one
line that the schema has for it. -/
theorem Tree.Misread.needsOneLine {names : List String} {t : Tree} {e : Fault}
    (h : t.Misread names e) (ht : t.Lexable) (hnames : ∀ name ∈ names, OneLine name) :
    e.NeedsOneLine := by
  induction h with
  | element mem _ ih =>
    cases ht with
    | list pos elements_ok => exact ih (elements_ok _ mem)
  | @misplaced t needed named => exact Fault.needsOneLine_blame (hnames needed named) t
  | wrongSymbol named => exact hnames _ named
  | noNumeral named => exact hnames _ named
  | tooManyDigits => trivial
  | outOfRange named => exact hnames _ named
  | @unpaired before pos keyPos name =>
    -- The keyword is one of the notation.
    have hname : OneLine name := by
      cases ht with
      | list pos elements_ok =>
        cases elements_ok _ (List.mem_append_right before List.mem_cons_self) with
        | leaf pos name_ok => exact oneLine_of_isKeyword name_ok
    show OneLine ("value after keyword :" ++ name)
    exact oneLine_append.2 ⟨by decide, hname⟩

/-! ## Names in the schema -/

/-- What is needed where a value is read. -/
def Content.needed : Content → List String
  | text => ["string"]
  | flag => ["symbol", "true or false"]
  | word v => ["symbol", v.listing]
  | integer range => ["number", "valid number", range.describe]
  | nothing what => ["list", s!"empty {what} list"]
  | node _ => []
  | orNil c => c.needed

/-- What is needed where a field is read. -/
def Field.needed : Field → List String
  | required name content => s!":{name} field" :: content.needed
  | optional _ content _ => content.needed
  | id => Content.needed (.integer nodeIdRange)

/-- What is needed where a list is read in a form. -/
def Form.needed {α : Type} (form : Form α) : List String :=
  form.tag :: "keyword" :: form.fields.flatMap Field.needed

namespace NodeKind

variable {k : NodeKind}

/-- What the forms of the notation need is named on one line. -/
theorem oneLine_needed {form : Form k.Value} (h : form ∈ k.forms) :
    ∀ name ∈ form.needed, OneLine name := by
  have hforms : ∀ k ∈ all, ∀ form ∈ k.forms, ∀ name ∈ form.needed, OneLine name := by
    decide +kernel
  exact hforms k k.mem_all_kinds form h

/-- The tags of a table are on one line. -/
theorem oneLine_expected {table : TagTable (Form k.Value)} (h : k.shape = .union table) :
    OneLine table.expected := by
  have htables : ∀ k ∈ all, ∀ table ∈ k.table?, OneLine table.expected := by
    decide +kernel
  apply htables k k.mem_all_kinds
  rw [table?, h]
  rfl

end NodeKind

theorem Vocabulary.oneLine_listing (v : Vocabulary) : OneLine v.listing := by
  cases v <;> decide

/-! ## The rules of building -/

/-- Where a computation fails, what it needs is named on one line. -/
def Build.NeedsOneLine {α : Type} (x : Build α) : Prop :=
  x.Yields (fun _ => True) Fault.NeedsOneLine

/-- An element of a list can be written, and what is needed to build from it is named on one line. -/
structure Part.NeedsOneLine (p : Part) : Prop where
  tree_ok : p.tree.Lexable
  build_ok : ∀ k, (p.build k).NeedsOneLine

theorem Build.needsOneLine_ofExcept {α : Type} {x : Except Fault α} {t : Tree}
    {names : List String} (hx : ∀ e, x = .error e → t.Misread names e) (ht : t.Lexable)
    (hnames : ∀ name ∈ names, OneLine name) : (ofExcept x).NeedsOneLine :=
  yields_ofExcept (fun _ _ => trivial) fun e he => (hx e he).needsOneLine ht hnames

theorem Content.needsOneLine_read (c : Content) {p : Part} (hp : p.NeedsOneLine)
    (hc : ∀ name ∈ c.needed, OneLine name) : (c.read p).NeedsOneLine := by
  induction c with
  | text => exact needsOneLine_ofExcept (fun _ => Tree.misread_of_expectString) hp.tree_ok hc
  | flag => exact needsOneLine_ofExcept (fun _ => Tree.misread_of_expectFlag) hp.tree_ok hc
  | word v => exact needsOneLine_ofExcept (fun _ => Tree.misread_of_expectWord) hp.tree_ok hc
  | integer range =>
    exact needsOneLine_ofExcept (fun _ => Tree.misread_of_expectIn) hp.tree_ok hc
  | nothing what =>
    exact needsOneLine_ofExcept (fun _ => Tree.misread_of_expectNothing) hp.tree_ok hc
  | node k => exact hp.build_ok k
  | orNil c ih =>
    rw [read]
    split
    · exact yields_pure trivial
    · exact Yields.map (ih hc)

section Values

variable {pos : Position} {fields : Fields Part}

theorem Field.needsOneLine_read (hfields : ∀ name, ∀ p ∈ fields.get? name, p.NeedsOneLine)
    {f : Field} (hf : ∀ name ∈ f.needed, OneLine name) : (f.read pos fields).NeedsOneLine := by
  cases f with
  | required name content =>
    obtain ⟨hname, hcontent⟩ := List.forall_mem_cons.1 hf
    rw [read]
    apply yields_ofExcept_bind
    · intro e he
      unfold Fields.require at he
      split at he
      · cases he
      · obtain rfl := Except.error.inj he
        exact hname
    · intro p hp
      exact content.needsOneLine_read (hfields name p (get?_of_require hp)) hcontent
  | optional name content absent =>
    rw [read]
    split
    next p hp => exact content.needsOneLine_read (hfields name p hp) hf
    next => exact yields_pure trivial
  | id =>
    rw [read]
    split
    next p hp =>
      exact Yields.map (needsOneLine_ofExcept (fun _ => Tree.misread_of_expectIn)
        (hfields Field.id.name p hp).tree_ok hf)
    next => exact yields_nextId.mono (fun _ _ => trivial) fun _ he => he

theorem Values.needsOneLine_read (hfields : ∀ name, ∀ p ∈ fields.get? name, p.NeedsOneLine)
    {fs : List Field} (hfs : ∀ f ∈ fs, ∀ name ∈ f.needed, OneLine name) :
    (Values.read pos fields fs).NeedsOneLine := by
  induction fs with
  | nil => exact yields_pure trivial
  | cons f fs ih =>
    obtain ⟨hf, hmore⟩ := List.forall_mem_cons.1 hfs
    rw [read]
    refine Yields.bind (Field.needsOneLine_read hfields hf) fun value _ _ => ?_
    exact Yields.bind (ih hmore) fun values _ _ => yields_pure trivial

end Values

section Forms

variable {k : NodeKind} {elements : List Tree} {pos : Position} {t : Tree} {parts : List Part}

/-- What is needed of the values of a form is named on one line. -/
theorem Form.oneLine_of_refuse {form : Form k.Value} (hform : form ∈ k.forms)
    {values : Values form.fields} {needed found : String}
    (h : form.refuse values = some (needed, found)) : OneLine needed := by
  rcases k.refuse_eq_none_or_span form hform with hnone | hspan
  · rw [hnone] at h
    cases h
  · cases hspan
    change (if _ then _ else _ : Option (String × String)) = _ at h
    split at h
    · obtain ⟨rfl, -⟩ := Prod.mk.inj (Option.some.inj h)
      decide
    · cases h

theorem Form.needsOneLine_read {form : Form k.Value} (hform : form ∈ k.forms)
    (ht : (Tree.list elements pos).Lexable)
    (hparts : ∀ p ∈ elements.map Tree.toPart, p.NeedsOneLine) :
    (form.read pos (elements.map Tree.toPart)).NeedsOneLine := by
  have hnames := NodeKind.oneLine_needed hform
  by_cases hread : elements.map Tree.toPart ≠ [] ∨ form.blank = none
  · rw [read_eq_readFields hread, readFields]
    apply yields_ofExcept_bind
    · intro e he
      refine (misread_of_fieldsOf he).needsOneLine ht fun name hname => hnames name ?_
      exact List.mem_append_left _ hname
    · intro fields hfields
      have hget : ∀ name, ∀ p ∈ fields.get? name, p.NeedsOneLine :=
        fun name p hp => hparts p (mem_of_get?_fieldsOf hfields hp)
      have hneeded : ∀ f ∈ form.fields, ∀ name ∈ f.needed, OneLine name := by
        intro f hf name hname
        apply hnames
        exact List.mem_append_right [_, _] (List.mem_flatMap.2 ⟨f, hf, hname⟩)
      refine Yields.bind (Values.needsOneLine_read hget hneeded) fun values _ _ => ?_
      cases hrefuse : form.refuse values with
      | some refusal => exact yields_throw (oneLine_of_refuse hform hrefuse)
      | none => exact yields_pure trivial
  · rw [not_or, not_not] at hread
    obtain ⟨hnil, hblank⟩ := hread
    obtain ⟨a, ha⟩ := Option.ne_none_iff_exists'.1 hblank
    rw [hnil, read_of_blank ha]
    exact yields_pure trivial

theorem Shape.needsOneLine_read (k : NodeKind) (ht : t.Lexable)
    (hforms : ∀ elements pos, t = .list elements pos → ∀ form ∈ k.forms,
      (form.read pos parts).NeedsOneLine)
    (hparts : ∀ p ∈ parts, p.NeedsOneLine) : (k.shape.read t parts).NeedsOneLine := by
  have hlist : ∀ e, t.expectList = .error e → e.NeedsOneLine :=
    fun e he => (Tree.misread_of_expectList he).needsOneLine ht (by decide)
  cases hshape : k.shape with
  | form form =>
    refine yields_ofExcept_bind hlist fun found hfound => ?_
    exact hforms _ _ (Tree.eq_list_of_expectList hfound) form (NodeKind.mem_forms_of_form hshape)
  | union table =>
    refine yields_ofExcept_bind hlist fun found hfound => ?_
    obtain rfl := Tree.eq_list_of_expectList hfound
    apply yields_ofExcept_bind
    · intro e he
      refine (TagTable.misread_of_select he).needsOneLine ht ?_
      exact List.forall_mem_singleton.2 (NodeKind.oneLine_expected hshape)
    · intro form hform
      obtain ⟨hbind, -⟩ := TagTable.select_eq_ok hform
      obtain ⟨tag, -, hfind⟩ := Option.bind_eq_some_iff.1 hbind
      exact hforms _ _ rfl form (NodeKind.mem_forms_of_find? hshape hfind)
  | row elementKind make =>
    refine yields_ofExcept_bind hlist fun found _ => ?_
    have hrow : (parts.mapM fun p : Part => p.build elementKind).Yields
        (List.Forall₂ (fun _ _ => True) · parts) Fault.NeedsOneLine :=
      yields_mapM fun p hp => (hparts p hp).build_ok elementKind
    exact hrow.bind fun nodes _ _ => yields_pure trivial
  | word v make =>
    apply Yields.map
    refine needsOneLine_ofExcept (fun _ => Tree.misread_of_expectWord) ht ?_
    exact List.forall_mem_cons.2 ⟨by decide, List.forall_mem_singleton.2 v.oneLine_listing⟩

end Forms

/-- What is needed where a tree that can be written has a fault is named on one line. -/
theorem Tree.needsOneLine_build {t : Tree} (ht : t.Lexable) (k : NodeKind) :
    (t.build k).NeedsOneLine := by
  induction ht generalizing k with
  | @leaf l pos leaf_ok =>
    exact Shape.needsOneLine_read k (.leaf pos leaf_ok) nofun (List.forall_mem_nil _)
  | @list elements pos elements_ok ih =>
    have hparts : ∀ p ∈ elements.map toPart, p.NeedsOneLine :=
      List.forall_mem_map.2 fun t ht => ⟨elements_ok t ht, ih t ht⟩
    rw [build_list]
    refine Shape.needsOneLine_read k (.list pos elements_ok) ?_ hparts
    rintro _ _ ⟨rfl, rfl⟩ form hform
    exact Form.needsOneLine_read hform (.list pos elements_ok) hparts

end CrateNotation
