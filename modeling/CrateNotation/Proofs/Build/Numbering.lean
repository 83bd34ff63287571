import CrateNotation.Proofs.Build.Marks
import CrateNotation.Proofs.Build.Source
import CrateNotation.Proofs.Schema.Numbered

/-!
# How nodes are numbered

A node whose list holds no id takes the next id of the session, and takes it when all nodes inside
it have theirs.  So the ids that a build issues number the nodes in the order of completion and
leave no number out, whatever ids are written in between.

The rules of building are followed from a field up to a shape.  That a form numbers its nodes last
is all that they need to know of the schema.  The induction is on the tree, and each rule is proved
for elements whose nodes are numbered in order.

## Main Statements

* `Tree.numbers_build` — every build issues ids in the order of completion
* `Tree.build_numbers_postorder` — what this says about the ids of a node
-/

namespace CrateNotation

open Build

/-- A number that is read stands for what it is read as. -/
theorem Tree.standsFor_of_expectNumber {t : Tree} {value : Int} {pos : Position}
    (h : t.expectNumber = .ok (value, pos)) : t.StandsFor value := by
  unfold Tree.expectNumber at h
  split at h
  next text p =>
    split at h
    · cases h
    next numeral hnumeral =>
      split at h
      · cases h
      · obtain ⟨rfl, rfl⟩ := Prod.mk.inj (Except.ok.inj h)
        exact ⟨text, p, numeral, rfl, hnumeral, rfl⟩
  · cases h

/-- So does a number that is accepted in a range. -/
theorem Tree.standsFor_of_expectIn {range : IntRange} {t : Tree} {value : Int}
    (h : t.expectIn range = .ok value) : t.StandsFor value := by
  unfold Tree.expectIn at h
  obtain ⟨⟨n, pos⟩, hnumber, h⟩ := exists_of_bind_eq_ok h
  have hstands := standsFor_of_expectNumber hnumber
  change (if _ then _ else _ : Except Fault Int) = _ at h
  split at h
  · obtain rfl := Except.ok.inj h
    exact hstands
  · cases h

/-- A tree that can be built as a node of any kind numbers the node in order. -/
def Tree.NumbersAll (t : Tree) : Prop :=
  ∀ k, (t.build k).Numbers k.outline (t.outline k)

/-! ## Fields -/

/-- The value of a field numbers its nodes in order. -/
theorem Content.numbers_read (c : Content) {t : Tree} (ht : t.NumbersAll) :
    (c.read t.toPart).Numbers c.nodes (c.outline t.toSketch) := by
  induction c with
  | node k => exact ht k
  | orNil c ih =>
    rw [Content.read, Content.outline, Tree.tree_toPart, Tree.tree_toSketch]
    by_cases hnil : t.isNil = true
    · rw [if_pos hnil, if_pos hnil]
      exact numbers_pure rfl
    · rw [if_neg hnil, if_neg hnil]
      exact Numbers.map ih
  | text | flag | word v | integer range | nothing what =>
    exact numbers_ofExcept fun _ _ => rfl

section Values

variable {pos : Position} {fields : Fields Part} {value : String → Option Tree}

/-- The value of a field other than the id numbers its nodes in order. -/
theorem Field.numbers_read (hget : ∀ name, fields.get? name = (value name).map Tree.toPart)
    (hvalue : ∀ name, ∀ t ∈ value name, t.NumbersAll) {f : Field} (hid : f.isId = false)
    (habsent : f.absentPlain = true) :
    (f.read pos fields).Numbers f.nodes
      (f.outline fun name => (value name).map Tree.toSketch) := by
  cases f with
  | id => cases hid
  | required name content =>
    rw [Field.read, Field.outline, Fields.require, hget]
    apply numbers_ofExcept_bind
    intro p hp
    cases hname : value name with
    | none =>
      rw [hname] at hp
      cases hp
    | some t =>
      rw [hname] at hp
      obtain rfl := Except.ok.inj hp
      exact content.numbers_read (hvalue name t hname)
  | optional name content absent =>
    rw [Field.read, Field.outline, hget]
    cases hname : value name with
    | none => exact numbers_pure (of_decide_eq_true habsent)
    | some t => exact content.numbers_read (hvalue name t hname)

/-- The id of a node is written or issued. -/
theorem Field.issued_of_read_id (hget : ∀ name, fields.get? name = (value name).map Tree.toPart)
    {start stop : Int} {id : NodeId}
    (h : (Field.id.read pos fields).runFrom start = (.ok id, stop)) :
    Issued start [⟨id, value Field.id.name⟩] stop := by
  rw [Field.read, hget] at h
  cases hname : value Field.id.name with
  | none =>
    rw [hname] at h
    obtain ⟨-, rfl, rfl⟩ := runFrom_nextId_eq_ok_iff.1 h
    exact .automatic .nil
  | some t =>
    rw [hname] at h
    obtain ⟨n, hn, rfl⟩ := runFrom_map_eq_ok_iff.1 h
    obtain ⟨hok, rfl⟩ := runFrom_ofExcept_eq_ok_iff.1 hn
    exact .written (Tree.standsFor_of_expectIn hok) .nil

theorem Values.isSome_id? (fs : List Field) (values : Values fs) :
    (Values.id? fs values).isSome = fs.any Field.isId := by
  induction fs with
  | nil => rfl
  | cons f fs ih =>
    obtain ⟨v, values⟩ := values
    cases f with
    | id => rfl
    | required name content => exact ih values
    | optional name content absent => exact ih values

/-- `Values.Issued value fs values start stop` says that the ids in the values of the fields are
written or issued in order: first those of the nodes in them, and then the id itself. What is
written for a field is what `value` gives for its name. -/
def Values.Issued (value : String → Option Tree) (fs : List Field) (values : Values fs)
    (start stop : Int) : Prop :=
  ∃ marks : Forest Mark, marks.map Mark.id = Values.outline fs values ∧
    marks.map Mark.written =
      .flatMap (Field.outline fun name => (value name).map Tree.toSketch) fs ∧
    CrateNotation.Issued start (marks.labels ++
      ((Values.id? fs values).map fun id => ⟨id, value Field.id.name⟩).toList) stop

/-- A field other than the id adds the nodes in it in front. -/
theorem Values.Issued.cons {f : Field} {fs : List Field} {v : f.Value} {values : Values fs}
    {start mid stop : Int} (h : Values.Issued value fs values mid stop)
    (hget : ∀ name, fields.get? name = (value name).map Tree.toPart)
    (hvalue : ∀ name, ∀ t ∈ value name, t.NumbersAll) (hid : f.isId = false)
    (habsent : f.absentPlain = true) (hv : (f.read pos fields).runFrom start = (.ok v, mid)) :
    Values.Issued value (f :: fs) (v, values) start stop := by
  obtain ⟨marks, houtline, hwritten, hissued⟩ :=
    Field.numbers_read hget hvalue hid habsent start v mid hv
  obtain ⟨marks', houtline', hwritten', hissued'⟩ := h
  have hids : Values.id? (f :: fs) (v, values) = Values.id? fs values := by
    cases f with
    | id => cases hid
    | required name content => rfl
    | optional name content absent => rfl
  refine ⟨marks ++ marks', ?_, ?_, ?_⟩
  · rw [Forest.map_append, houtline, houtline', Values.outline_cons]
  · rw [Forest.map_append, hwritten, hwritten', Forest.flatMap_cons]
  · rw [Forest.labels_append, List.append_assoc, hids]
    exact hissued.append hissued'

/-- The id is issued by itself, since there are no nodes in the fields behind it. -/
theorem Values.Issued.cons_id {fs : List Field} {id : NodeId} {values : Values fs}
    {start mid stop : Int} (h : Values.Issued value fs values mid stop)
    (hget : ∀ name, fields.get? name = (value name).map Tree.toPart)
    (hplain : ∀ f ∈ fs, f.isPlain = true)
    (hid : (Field.id.read pos fields).runFrom start = (.ok id, mid)) :
    Values.Issued value (.id :: fs) (id, values) start stop := by
  obtain ⟨houtline, hids⟩ := Values.outline_of_isPlain hplain values
  obtain ⟨marks, hmarks, hwritten, hissued⟩ := h
  rw [houtline, Forest.map_eq_nil_iff] at hmarks
  obtain rfl := hmarks
  rw [hids] at hissued
  have hfirst := Field.issued_of_read_id hget hid
  refine ⟨.nil, ?_, hwritten, ?_⟩
  · rw [Values.outline_cons, houtline]
    rfl
  · exact hfirst.append hissued

/-- The values of fields are read with their ids in order. -/
theorem Values.issued_of_read (hget : ∀ name, fields.get? name = (value name).map Tree.toPart)
    (hvalue : ∀ name, ∀ t ∈ value name, t.NumbersAll) {fs : List Field}
    (hlast : idLast fs = true) (habsent : ∀ f ∈ fs, f.absentPlain = true) {start stop : Int}
    {values : Values fs} (h : (Values.read pos fields fs).runFrom start = (.ok values, stop)) :
    Values.Issued value fs values start stop := by
  induction fs generalizing start with
  | nil =>
    obtain ⟨-, rfl⟩ := runFrom_pure_eq_ok_iff.1 h
    exact ⟨.nil, rfl, rfl, .nil⟩
  | cons f fs ih =>
    obtain ⟨hf, hfs⟩ := List.forall_mem_cons.1 habsent
    rw [Values.read] at h
    obtain ⟨v, mid, hv, h⟩ := runFrom_bind_eq_ok_iff.1 h
    obtain ⟨vs, mid', hvs, hpure⟩ := runFrom_bind_eq_ok_iff.1 h
    obtain ⟨rfl, rfl⟩ := runFrom_pure_eq_ok_iff.1 hpure
    cases f with
    | required name content =>
      have hrest := ih hlast hfs hvs
      exact hrest.cons hget hvalue rfl hf hv
    | optional name content absent =>
      have hrest := ih hlast hfs hvs
      exact hrest.cons hget hvalue rfl hf hv
    | id =>
      have hplain : ∀ f ∈ fs, f.isPlain = true := List.all_eq_true.1 hlast
      have hrest := ih (idLast_of_isPlain hplain) hfs hvs
      exact hrest.cons_id hget hplain hv

end Values

/-! ## Forms and shapes -/

section Forms

variable {α : Type} {outline : α → Forest NodeId} {elements : List Tree}

/-- A list in a form that numbers its nodes last numbers its nodes in order. -/
theorem Form.numbers_read {form : Form α} (hform : form.Numbered outline)
    (helements : ∀ t ∈ elements, t.NumbersAll) (pos : Position) :
    (form.read pos (elements.map Tree.toPart)).Numbers outline
      (form.outline (elements.map Tree.toSketch)) := by
  let value := fun name => form.valueOf id name elements.tail
  have hvalue : ∀ name, ∀ t ∈ value name, t.NumbersAll := by
    intro name t ht
    exact helements t (List.mem_of_mem_tail (mem_of_valueOf ht))
  unfold Form.read
  split
  next a hnil hblank =>
    -- The blank has no numbered nodes in it, and there is nothing written in the empty list.
    obtain ⟨ha, hplain⟩ := hform.blank a hblank
    obtain rfl : elements = [] := List.map_eq_nil_iff.1 hnil
    have hid : form.fields.any Field.isId = false := by
      rw [List.any_eq_false]
      intro f hf hid
      have hfield : f.isPlain = true := hplain f hf
      cases f with
      | id => cases hfield
      | required name content => cases hid
      | optional name content absent => cases hid
    rw [List.map_nil, Form.outline_nil hid]
    exact numbers_pure ha
  next _ =>
    rw [Form.outline_map_toSketch]
    apply numbers_ofExcept_bind
    intro fields hfields start a stop hrun
    -- What is looked up in the fields is what counts in the list.
    have hget : ∀ name, fields.get? name = (value name).map Tree.toPart :=
      get?_of_fieldsOf_toPart hfields
    obtain ⟨values, mid, hvalues, hmake⟩ := runFrom_bind_eq_ok_iff.1 hrun
    obtain ⟨marks, hids, hwritten, hissued⟩ :=
      Values.issued_of_read hget hvalue hform.idLast (List.all_eq_true.1 hform.absent) hvalues
    split at hmake
    next needed found _ => cases hmake
    next _ =>
      obtain ⟨rfl, rfl⟩ := runFrom_pure_eq_ok_iff.1 hmake
      have hsome := Values.isSome_id? form.fields values
      refine ⟨.wrap marks
        ((Values.id? form.fields values).map fun id => ⟨id, value Field.id.name⟩), ?_, ?_, ?_⟩
      · rw [Forest.map_wrap, hids, hform.make, Option.map_map]
        congr 1
        exact Option.map_id_apply
      · rw [Forest.map_wrap, hwritten, Option.map_map, ← hsome]
        cases Values.id? form.fields values with
        | none => rfl
        | some id => rfl
      · rw [Forest.labels_wrap]
        exact hissued

/-- The tag of a list is the symbol at its head. -/
theorem tag?_of_headSymbol {needed text : String} {pos p : Position}
    (h : headSymbol needed pos elements = .ok (text, p)) : tag? elements = some text := by
  unfold headSymbol at h
  split at h
  · cases h
  next text' p' rest =>
    obtain ⟨rfl, rfl⟩ := Prod.mk.inj (Except.ok.inj h)
    rfl
  · cases h

/-- What a table has for a list is one of its entries, and is listed for the tag of the list. -/
theorem TagTable.select_eq_ok {β : Type} {table : TagTable β} {pos : Position} {b : β}
    (h : table.select pos elements = .ok b) :
    (tag? elements).bind table.find? = some b ∧ ∃ entry ∈ table.entries, entry.2 = b := by
  unfold TagTable.select at h
  obtain ⟨⟨text, p⟩, hhead, h⟩ := exists_of_bind_eq_ok h
  have htag : tag? elements = some text := tag?_of_headSymbol hhead
  cases hfind : table.find? text with
  | none =>
    simp only [hfind] at h
    cases h
  | some value =>
    simp only [hfind] at h
    obtain rfl := Except.ok.inj h
    obtain ⟨before, after, hentries, -⟩ := List.lookup_eq_some_iff.1 hfind
    constructor
    · rw [htag]
      exact hfind
    · refine ⟨(text, value), ?_, rfl⟩
      rw [hentries]
      exact List.mem_append_right before List.mem_cons_self

/-- A list in a shape that numbers its nodes last numbers its nodes in order. -/
theorem Shape.numbers_read {shape : Shape α} (hshape : shape.Numbered outline)
    (helements : ∀ t ∈ elements, t.NumbersAll) (pos : Position) :
    (shape.read (.list elements pos) (elements.map Tree.toPart)).Numbers outline
      (shape.outline (elements.map Tree.toSketch)) := by
  cases shape with
  | form f =>
    apply numbers_ofExcept_bind
    intro found hfound
    obtain rfl := Except.ok.inj hfound
    exact Form.numbers_read hshape helements pos
  | union table =>
    apply numbers_ofExcept_bind
    intro found hfound
    obtain rfl := Except.ok.inj hfound
    apply numbers_ofExcept_bind
    intro f hf
    -- The form that the tag selects is one of the table, which are all numbered.
    obtain ⟨htag, entry, hentry, rfl⟩ := TagTable.select_eq_ok hf
    have htrees : (elements.map Tree.toSketch).map Sketch.tree = elements := by
      rw [List.map_map]
      exact List.map_id elements
    rw [Shape.outline, htrees, htag, Option.elim_some]
    exact Form.numbers_read (hshape entry hentry) helements pos
  | row k make =>
    apply numbers_ofExcept_bind
    intro found hfound
    have hrow : (elements.mapM fun t : Tree => t.build k).Numbers (Forest.flatMap k.outline)
        (Forest.flatMap (fun t : Tree => t.outline k) elements) := by
      apply numbers_mapM
      intro t ht
      exact helements t ht k
    have houtline : outline ∘ make = Forest.flatMap k.outline := by
      funext nodes
      exact hshape nodes
    rw [Shape.outline, Forest.flatMap_map, List.mapM_map, ← map_eq_pure_bind]
    apply Numbers.map
    rw [houtline]
    exact hrow
  | word v make => exact Numbers.map (numbers_ofExcept fun w _ => hshape w)

/-- A tree that is not a list numbers nothing. -/
theorem Shape.numbers_read_nil {shape : Shape α} (hshape : shape.Numbered outline) {t : Tree}
    (ht : ∀ found, t.expectList ≠ .ok found) : (shape.read t []).Numbers outline .nil := by
  cases shape with
  | form f => exact numbers_ofExcept_bind fun found hfound => absurd hfound (ht found)
  | union table => exact numbers_ofExcept_bind fun found hfound => absurd hfound (ht found)
  | row k make => exact numbers_ofExcept_bind fun found hfound => absurd hfound (ht found)
  | word v make => exact Numbers.map (numbers_ofExcept fun w _ => hshape w)

end Forms

/-! ## Trees -/

namespace Tree

/-- Every build issues ids in the order of completion. -/
theorem numbers_build (t : Tree) : t.NumbersAll := by
  induction t with
  | leaf l pos =>
    intro k
    exact Shape.numbers_read_nil k.numbered_shape nofun
  | list elements pos ih =>
    intro k
    rw [build_list, outline_list]
    exact Shape.numbers_read k.numbered_shape ih pos
  | hole =>
    intro k
    exact Shape.numbers_read_nil k.numbered_shape nofun

/-- Automatic ids number the nodes of a build in the order of completion.  If a build that starts
at the number `start` succeeds, the numbered nodes of what is built are those that are written in
the tree.  The ids of the nodes that have none written are `start`, `start + 1` and so on, one for
each of them and in the order of completion, up to the number that the session has then.  The others
have the ids that are written, and use up no number.  So a node with an automatic id has a greater
id than the nodes with automatic ids inside it. -/
theorem build_numbers_postorder
    (t : Tree) (k : NodeKind) (start stop : Int) (value : k.Value)
    (h : (t.build k).runFrom start = (.ok value, stop)) :
    ∃ marks : Forest Mark,
      marks.map Mark.id = k.outline value ∧
      marks.map Mark.written = t.outline k ∧
      (∃ n : Nat, stop = start + n ∧
        (marks.labels.filter Mark.isAutomatic).map Mark.id =
          (List.range n).map fun i : Nat => ⟨start + i⟩) ∧
      (∀ m ∈ marks.labels, ∀ w ∈ m.written, w.StandsFor m.id.value) ∧
      (∀ p ∈ marks.nodes, p.2.isAutomatic = true →
        ∀ m ∈ p.1.labels, m.isAutomatic = true → m.id.value < p.2.id.value) := by
  obtain ⟨marks, hids, hwritten, hissued⟩ := numbers_build t k start value stop h
  exact ⟨marks, hids, hwritten, hissued.automatic_eq, hissued.standsFor_of_mem,
    hissued.lt_of_mem_nodes⟩

/-- A block with two statements, where an id is written for the first: the second statement and the
block are numbered as if the first were not there. -/
theorem build_numbers_postorder_block :
    let symbol := fun text => leaf (.symbol text) .start
    let keyword := fun name => leaf (.keyword name) .start
    let empty := list [symbol "Empty"] .start
    let first := list [symbol "Stmt", keyword "id", leaf (.number "9") .start, keyword "kind",
      empty] .start
    let second := list [symbol "Stmt", keyword "kind", empty] .start
    let t := list [symbol "Block", keyword "stmts", list [first, second] .start] .start
    let b : Block := { stmts := [⟨⟨9⟩, .empty, .dummy⟩, ⟨⟨5⟩, .empty, .dummy⟩], id := ⟨6⟩ }
    (t.build .block).runFrom 5 = (.ok b, 7) ∧
      ∃ marks : Forest Mark,
        marks.map Mark.id = .node (.cons .nil ⟨9⟩ (.node .nil ⟨5⟩)) ⟨6⟩ ∧
        marks.map Mark.written = t.outline .block ∧
        (marks.labels.filter Mark.isAutomatic).map Mark.id = [⟨5⟩, ⟨6⟩] := by
  intro symbol keyword empty first second t b
  have hbuild : (t.build .block).runFrom 5 = (.ok b, 7) := by rfl
  refine ⟨hbuild, ?_⟩
  obtain ⟨marks, hids, hwritten, ⟨n, hstop, hautomatic⟩, -⟩ :=
    build_numbers_postorder t .block 5 7 b hbuild
  obtain rfl : n = 2 := by omega
  exact ⟨marks, hids, hwritten, hautomatic⟩

end Tree

end CrateNotation
