import CrateNotation.Proofs.Build.Faulty
import CrateNotation.Proofs.Build.Heads
import CrateNotation.Proofs.Build.Numbering
import CrateNotation.Proofs.Build.Reading

/-!
# What is built is valid

Nothing gets into a node that has not been checked: numbers are checked where they are read, spans
where they are made, and what stands for a field that is not written is in order by itself.  So a
node that is built is valid, and each node of a union in it has the tag that is written for it.  A
tree from which no node is built has a fault of its own, or of a tree inside it.

Both are proved at once, along the rules of building from a field up to a shape.  That the forms of
the notation are sound is all that the rules need to know of them.  The induction is on the tree.

## Main Definitions

* `WellBuilt` — details that are in order, with the tags that are written
* `Tree.YieldsValid` — what is said of a tree

## Main Statements

* `Tree.yields_build` — every tree is written for valid nodes, or is faulty
* `Tree.build_valid` — what this says about the nodes
-/

namespace CrateNotation

open Build

/-- Details are in order, and the tags among them are as they are written. -/
structure WellBuilt (details : List Detail) (heads : List (Option String)) : Prop where
  valid : ∀ d ∈ details, d.Valid
  agree : TagsAgree (tagsOf details) heads

namespace WellBuilt

variable {details more : List Detail} {heads others : List (Option String)}

theorem nil : WellBuilt [] [] where
  valid := by simp
  agree := .nil

theorem append (h : WellBuilt details heads) (hmore : WellBuilt more others) :
    WellBuilt (details ++ more) (heads ++ others) where
  valid := List.forall_mem_append.2 ⟨h.valid, hmore.valid⟩
  agree := by
    rw [tagsOf_append]
    exact List.rel_append h.agree hmore.agree

/-- The details of a row are in order if those of its nodes are. -/
theorem flatMap {α β : Type} {f : α → List Detail} {g : β → List (Option String)} {as : List α}
    {bs : List β} (h : List.Forall₂ (fun a b => WellBuilt (f a) (g b)) as bs) :
    WellBuilt (as.flatMap f) (bs.flatMap g) := by
  induction h with
  | nil => exact .nil
  | cons hab _ ih =>
    rw [List.flatMap_cons, List.flatMap_cons]
    exact hab.append ih

end WellBuilt

/-- A tree that can be built as a node of any kind gives a valid node with the tags that are written
in the tree, or is faulty. -/
def Tree.YieldsValid (t : Tree) : Prop :=
  ∀ k, (t.build k).Yields (fun value => WellBuilt (k.details value) (t.heads k)) t.Faulty

/-! ## Fields -/

/-- An integer that is accepted in a range lies in it. -/
theorem Tree.mem_range_of_expectIn {range : IntRange} {t : Tree} {value : Int}
    (h : t.expectIn range = .ok value) : range.lo ≤ value ∧ value ≤ range.hi := by
  unfold Tree.expectIn at h
  obtain ⟨⟨n, pos⟩, -, h⟩ := exists_of_bind_eq_ok h
  change (if _ then _ else _ : Except Fault Int) = _ at h
  split at h
  next hrange =>
    obtain rfl := Except.ok.inj h
    exact hrange
  · cases h

/-- The value of a field is in order. -/
theorem Content.yields_read (c : Content) {t : Tree} (ht : t.YieldsValid) :
    (c.read t.toPart).Yields (fun value => WellBuilt (c.details value) (c.heads t.toHeaded))
      t.Faulty := by
  induction c with
  | text =>
    exact yields_ofExcept (fun _ _ => .nil) fun _ he => .misread (Tree.misread_of_expectString he)
  | flag =>
    exact yields_ofExcept (fun _ _ => .nil) fun _ he => .misread (Tree.misread_of_expectFlag he)
  | word v =>
    exact yields_ofExcept (fun _ _ => .nil) fun _ he => .misread (Tree.misread_of_expectWord he)
  | integer range =>
    refine yields_ofExcept (fun value hvalue => ?_) fun _ he => .misread (Tree.misread_of_expectIn he)
    exact ⟨List.forall_mem_singleton.2 (Tree.mem_range_of_expectIn hvalue), .nil⟩
  | nothing what =>
    refine yields_ofExcept (fun _ _ => ?_) fun _ he => .misread (Tree.misread_of_expectNothing he)
    exact ⟨List.forall_mem_singleton.2 rfl, .nil⟩
  | node k => exact ht k
  | orNil c ih =>
    rw [read, heads, Tree.tree_toPart]
    by_cases hnil : t.isNil = true
    · rw [if_pos hnil]
      apply yields_pure
      rw [show t.toHeaded.tree.isNil = true from hnil, if_pos rfl]
      exact ⟨Content.valid_of_mem_nilDetails, .refl _⟩
    · rw [if_neg hnil]
      apply Yields.map
      rw [if_neg (show ¬t.toHeaded.tree.isNil = true from hnil)]
      exact ih

section Values

variable {pos : Position} {fields : Fields Part} {value : String → Option Tree} {E : Fault → Prop}

/-- The value of a field is in order, whether it is written or not. -/
theorem Field.yields_read (hget : ∀ name, fields.get? name = (value name).map Tree.toPart)
    (hvalue : ∀ name, ∀ t ∈ value name, t.YieldsValid ∧ ∀ e, t.Faulty e → E e)
    (hmissing : ∀ name, value name = none → E (.expected s!":{name} field" "missing" pos))
    {f : Field} (habsent : f.absentValid = true) :
    (f.read pos fields).Yields
      (fun v => WellBuilt (f.details v) (f.heads fun name => (value name).map Tree.toHeaded)) E := by
  cases f with
  | required name content =>
    rw [read, heads, Fields.require, hget]
    cases hname : value name with
    | none =>
      have hmissing := hmissing name hname
      apply yields_ofExcept_bind
      · intro e he
        obtain rfl := Except.error.inj he
        exact hmissing
      · intro p hp
        cases hp
    | some t =>
      obtain ⟨ht, hE⟩ := hvalue name t hname
      exact (content.yields_read ht).mono (fun _ h => h) hE
  | optional name content absent =>
    rw [read, heads, hget]
    cases hname : value name with
    | none => exact yields_pure ⟨of_decide_eq_true habsent, tagsAgree_unwritten _⟩
    | some t =>
      obtain ⟨ht, hE⟩ := hvalue name t hname
      exact (content.yields_read ht).mono (fun _ h => h) hE
  | id =>
    rw [read, heads, hget]
    cases hname : value Field.id.name with
    | none =>
      refine yields_nextId.mono (fun i hi => ?_) fun _ h => h
      exact ⟨List.forall_mem_singleton.2 hi, .nil⟩
    | some t =>
      obtain ⟨ht, hE⟩ := hvalue Field.id.name t hname
      apply Yields.map
      refine yields_ofExcept (fun i hi => ?_) fun e he => hE e (.misread (Tree.misread_of_expectIn he))
      exact ⟨List.forall_mem_singleton.2 (Tree.mem_range_of_expectIn hi), .nil⟩

/-- The values of fields are in order. -/
theorem Values.yields_read (hget : ∀ name, fields.get? name = (value name).map Tree.toPart)
    (hvalue : ∀ name, ∀ t ∈ value name, t.YieldsValid ∧ ∀ e, t.Faulty e → E e)
    (hmissing : ∀ name, value name = none → E (.expected s!":{name} field" "missing" pos))
    {fs : List Field} (habsent : fs.all Field.absentValid = true) :
    (Values.read pos fields fs).Yields
      (fun values => WellBuilt (Values.details fs values)
        (fs.flatMap (Field.heads fun name => (value name).map Tree.toHeaded))) E := by
  induction fs with
  | nil => exact yields_pure .nil
  | cons f fs ih =>
    rw [List.all_cons, Bool.and_eq_true] at habsent
    rw [read]
    refine (Field.yields_read hget hvalue hmissing habsent.1).bind fun v hv _ => ?_
    refine (ih habsent.2).bind fun vs hvs _ => ?_
    exact yields_pure (hv.append hvs)

end Values

/-! ## Forms and shapes -/

section Forms

variable {k : NodeKind} {elements : List Tree} {pos : Position}

/-- A list in a sound form is written for a valid node. -/
theorem Form.yields_read {form : Form k.Value} {own : List (Option String)} (hform : form ∈ k.forms)
    (hsound : form.Sound own k.details) (helements : ∀ t ∈ elements, t.YieldsValid) :
    (form.read pos (elements.map Tree.toPart)).Yields
      (fun value => WellBuilt (k.details value) (own ++ form.heads (elements.map Tree.toHeaded)))
      (Tree.list elements pos).Faulty := by
  by_cases hread : elements.map Tree.toPart ≠ [] ∨ form.blank = none
  · rw [read_eq_readFields hread, readFields, heads_map_toHeaded]
    have hunread : ∀ e, form.fieldsOf pos (elements.map Tree.toPart) = .error e →
        (Tree.list elements pos).Faulty e := fun _ he => .misread (misread_of_fieldsOf he)
    refine yields_ofExcept_bind hunread fun fields hfields => ?_
    -- What is looked up in the fields is what counts in the list.
    let value := fun name => form.valueOf id name elements.tail
    have hget : ∀ name, fields.get? name = (value name).map Tree.toPart :=
      get?_of_fieldsOf_toPart hfields
    have hvalue : ∀ name, ∀ t ∈ value name,
        t.YieldsValid ∧ ∀ e, t.Faulty e → (Tree.list elements pos).Faulty e := by
      intro name t ht
      have hmem : t ∈ elements := List.mem_of_mem_tail (mem_of_valueOf ht)
      exact ⟨helements t hmem, fun e he => .element hmem he⟩
    have hmissing : ∀ name, value name = none →
        (Tree.list elements pos).Faulty (.expected s!":{name} field" "missing" pos) := by
      intro name hname
      refine .missing hform hfields ?_
      rw [hget, hname, Option.map_none]
    refine (Values.yields_read hget hvalue hmissing hsound.absent).bind fun values hvalues hrun => ?_
    cases hrefuse : form.refuse values with
    | some refusal => exact yields_throw (.refused hform hfields hrun hrefuse)
    | none =>
      apply yields_pure
      refine ⟨hsound.valid values hvalues.valid hrefuse, (hsound.tags values).trans ?_⟩
      exact List.rel_append (TagsAgree.refl own) hvalues.agree
  · -- The empty list is blank.
    rw [not_or, not_not] at hread
    obtain ⟨hnil, hblank⟩ := hread
    obtain ⟨a, ha⟩ := Option.ne_none_iff_exists'.1 hblank
    obtain rfl : elements = [] := List.map_eq_nil_iff.1 hnil
    obtain ⟨hvalid, htags⟩ := hsound.blank a ha
    rw [List.map_nil, read_of_blank ha, List.map_nil, heads_nil, ← htags]
    exact yields_pure ⟨hvalid, .refl _⟩

/-- A word has no details. -/
theorem Shape.yields_read_word {v : Vocabulary} {make : v.Word → k.Value} {t : Tree}
    {parts : List Part} (hsound : ∀ w, k.details (make w) = []) :
    (read t parts (.word v make)).Yields (fun value => WellBuilt (k.details value) []) t.Faulty := by
  apply Yields.map
  refine yields_ofExcept (fun w _ => ?_) fun _ he => .misread (Tree.misread_of_expectWord he)
  rw [hsound w]
  exact .nil

/-- A list in a sound shape is written for a valid node. -/
theorem Shape.yields_read (k : NodeKind) (helements : ∀ t ∈ elements, t.YieldsValid) :
    (k.shape.read (.list elements pos) (elements.map Tree.toPart)).Yields
      (fun value => WellBuilt (k.details value) (k.shape.heads (elements.map Tree.toHeaded)))
      (Tree.list elements pos).Faulty := by
  have hsound := k.sound_shape
  have hlist : ∀ e, (Tree.list elements pos).expectList = .error e →
      (Tree.list elements pos).Faulty e := nofun
  cases hshape : k.shape with
  | form f =>
    rw [hshape] at hsound
    refine yields_ofExcept_bind hlist fun found hfound => ?_
    obtain rfl := Except.ok.inj hfound
    exact Form.yields_read (NodeKind.mem_forms_of_form hshape) hsound helements
  | union table =>
    rw [hshape] at hsound
    refine yields_ofExcept_bind hlist fun found hfound => ?_
    obtain rfl := Except.ok.inj hfound
    have hselect : ∀ e, table.select pos elements = .error e →
        (Tree.list elements pos).Faulty e := fun _ he => .misread (TagTable.misread_of_select he)
    refine yields_ofExcept_bind hselect fun f hf => ?_
    -- The tag that selects the form is the tag of its nodes.
    obtain ⟨hbind, -⟩ := TagTable.select_eq_ok hf
    obtain ⟨tag, htag, hfind⟩ := Option.bind_eq_some_iff.1 hbind
    have htrees : (elements.map Tree.toHeaded).map Headed.tree = elements := by
      rw [List.map_map]
      exact List.map_id elements
    have hread := @Form.yields_read k elements pos f [some tag]
      (NodeKind.mem_forms_of_find? hshape hfind) (hsound _ (TagTable.mem_of_find? hfind)) helements
    rw [heads, htrees, htag, Option.bind_some, hfind, Option.elim_some]
    exact hread
  | row elementKind make =>
    rw [hshape] at hsound
    refine yields_ofExcept_bind hlist fun found hfound => ?_
    have hrow : (elements.mapM fun t : Tree => t.build elementKind).Yields
        (List.Forall₂ (fun node t => WellBuilt (elementKind.details node) (t.heads elementKind)) ·
          elements) (Tree.list elements pos).Faulty := by
      apply yields_mapM
      intro t ht
      exact (helements t ht elementKind).mono (fun _ h => h) fun e he => .element ht he
    rw [List.mapM_map, heads, List.flatMap_map]
    refine hrow.bind fun nodes hnodes _ => ?_
    apply yields_pure
    rw [hsound nodes]
    exact .flatMap hnodes
  | word v make =>
    rw [hshape] at hsound
    exact yields_read_word hsound

/-- A tree that is not a list is written for a word or for nothing. -/
theorem Shape.yields_read_nil (k : NodeKind) {t : Tree} (ht : ∀ found, t.expectList ≠ .ok found) :
    (k.shape.read t []).Yields (fun value => WellBuilt (k.details value) []) t.Faulty := by
  have hsound := k.sound_shape
  have hlist : ∀ e, t.expectList = .error e → t.Faulty e :=
    fun _ he => .misread (Tree.misread_of_expectList he)
  cases hshape : k.shape with
  | form f =>
    exact yields_ofExcept_bind hlist fun _ h => absurd h (ht _)
  | union table =>
    exact yields_ofExcept_bind hlist fun _ h => absurd h (ht _)
  | row elementKind make =>
    exact yields_ofExcept_bind hlist fun _ h => absurd h (ht _)
  | word v make =>
    rw [hshape] at hsound
    exact yields_read_word hsound

end Forms

/-! ## Trees -/

namespace Tree

/-- Every tree is written for valid nodes, or is faulty. -/
theorem yields_build (t : Tree) : t.YieldsValid := by
  induction t with
  | leaf l pos =>
    intro k
    exact Shape.yields_read_nil k nofun
  | list elements pos ih =>
    intro k
    rw [build_list, heads_list]
    exact Shape.yields_read k ih
  | hole =>
    intro k
    exact Shape.yields_read_nil k nofun

/-- Everything that is built is valid.  If a build succeeds in a session that has issued any number
of ids, then in the node, at any depth, all ids, spans and integer literals are within bounds, and
there are no attributes, generic parameters or predicates.  The numbered nodes have the ids that
are written in the tree or ids that are less than the dummy.  The node of a union has the tag that
is at the head of the list it is written as, if there is one. -/
theorem build_valid {t : Tree} {k : NodeKind} {start stop : Int} {value : k.Value}
    (hstart : 0 ≤ start) (hle : start ≤ maxIndex)
    (h : (t.build k).runFrom start = (.ok value, stop)) :
    k.Valid value ∧
    (∃ marks : Forest Mark,
      marks.map Mark.id = k.outline value ∧
      marks.map Mark.written = t.outline k ∧
      ∀ m ∈ marks.labels, m.isAutomatic = true → 0 ≤ m.id.value ∧ m.id.value < maxIndex) ∧
    List.Forall₂ (fun tag head => ∀ symbol ∈ head, tag = some symbol)
      (k.tags value) (t.heads k) := by
  have hyields := yields_build t k start ⟨hstart, hle⟩
  rw [h] at hyields
  obtain ⟨⟨-, hstop⟩, hvalid, htags⟩ := hyields
  obtain ⟨marks, hids, hwritten, hissued⟩ := numbers_build t k start value stop h
  refine ⟨hvalid, ⟨marks, hids, hwritten, ?_⟩, htags⟩
  intro m hm hauto
  obtain ⟨hlow, hhigh⟩ := hissued.mem_bounds m hm hauto
  exact ⟨Int.le_trans hstart hlow, Int.lt_of_lt_of_le hhigh hstop⟩

/-- The last two ids that can be issued go to a literal and to the statement that it is. -/
theorem build_valid_statement :
    let symbol := fun text => leaf (.symbol text) .start
    let keyword := fun name => leaf (.keyword name) .start
    let number := fun text => leaf (.number text) .start
    let int := list [symbol "Int", keyword "value", number "-1"] .start
    let span := list [symbol "Span", keyword "lo", number "3", keyword "hi", number "5"] .start
    let lit := list [symbol "Lit", keyword "span", span, keyword "kind", int] .start
    let expr := list [symbol "Expr", keyword "kind", lit] .start
    let t := list [symbol "Stmt", keyword "kind", list [symbol "Semi", expr] .start] .start
    let literal : Expr := { id := ⟨4294967293⟩, kind := .lit ⟨.int (-1), ⟨3, 5, 0⟩⟩ }
    let s : Stmt := { id := ⟨4294967294⟩, kind := .semi literal }
    (t.build .stmt).runFrom 4294967293 = (.ok s, maxIndex) ∧ NodeKind.stmt.Valid s ∧
      List.Forall₂ (fun tag head => ∀ symbol ∈ head, tag = some symbol)
        (NodeKind.stmt.tags s) [some "Semi", some "Lit", some "Int"] := by
  intro symbol keyword number int span lit expr t literal s
  have hbuild : (t.build .stmt).runFrom 4294967293 = (.ok s, maxIndex) := by rfl
  obtain ⟨hvalid, -, htags⟩ := build_valid (by decide) (by decide) hbuild
  exact ⟨hbuild, hvalid, htags⟩

end Tree

end CrateNotation
