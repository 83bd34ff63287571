import CrateNotation.Proofs.Build.Defaults
import CrateNotation.Proofs.Build.Rearrangement
import CrateNotation.Proofs.Schema.Regular

/-!
# Lists written out in full

A list in which a field is left out is read as if the default of the field were written in it, and a
statement is read alike whether its expression has a keyword or not.  So lists may be written out in
full, or be shortened again, and this may be done to any number of lists in a tree at once.

What may be appended to a list depends on what the list is read as: the same tag can stand at the
head of lists of different kinds.  So the relation between a tree and the completed one speaks of the
kind that is built, and inside the value of a field, or in a row, of the kind that is read there.

A default takes no id and is never at fault.  It is appended, so its field is read where it was read
before, and nothing else is read differently.

## Main Definitions

* `Content.kind?`, `Field.kind?` — the kind of node that a value is read as
* `Tree.Completes` — a tree with one list in it written out

## Main Statements

* `Tree.build_completed` — completed trees are built alike
-/

namespace CrateNotation

/-- The kind of node that a value is read as, if it is read as a node. -/
def Content.kind? : Content → Option NodeKind
  | node k => some k
  | orNil c => c.kind?
  | text | flag | word _ | integer _ | nothing _ => none

/-- The kind of node that the value of a field is read as, if it is read as a node. -/
def Field.kind? : Field → Option NodeKind
  | required _ content | optional _ content _ => content.kind?
  | id => none

namespace Tree

/-- `Completes k s t` says that `t` is `s` with one more thing written in one of the lists that are
read when a node of kind `k` is built. -/
inductive Completes : NodeKind → Tree → Tree → Prop where
  /-- The default of a field is appended that is not written. -/
  | default {k : NodeKind} {form : Form k.Value} {name : String} {content : Content}
    {absent : content.Value} {pairs : List Pair} {d : Tree} {tagPos keyPos pos : Position}
    (form_ok : form ∈ k.forms) (field_ok : .optional name content absent ∈ form.fields)
    (not_written : ∀ p ∈ pairs, p.name ≠ name) (default_ok : d.WritesDefault name) :
    Completes k (tagged form.tag tagPos pairs pos)
      (tagged form.tag tagPos (pairs ++ [⟨name, keyPos, d⟩]) pos)
  /-- The expression of a statement gets its keyword. -/
  | keyword {tag : String} {e : Tree} {tagPos keyPos pos : Position}
    (tag_ok : tag ∈ ["Semi", "Expr"]) (list_ok : e.isList = true) :
    Completes .stmtKind (list [leaf (.symbol tag) tagPos, e] pos)
      (tagged tag tagPos [⟨"expr", keyPos, e⟩] pos)
  /-- The value of a field is completed. -/
  | field {k k' : NodeKind} {form : Form k.Value} {f : Field} {before after : List Pair} {s t : Tree}
    {tagPos keyPos pos : Position} (form_ok : form ∈ k.forms) (field_ok : f ∈ form.fields)
    (kind_eq : f.kind? = some k') (value : Completes k' s t) :
    Completes k (tagged form.tag tagPos (before ++ ⟨f.name, keyPos, s⟩ :: after) pos)
      (tagged form.tag tagPos (before ++ ⟨f.name, keyPos, t⟩ :: after) pos)
  /-- The expression of a statement is completed, and stands without its keyword. -/
  | expression {tag : String} {s t : Tree} {tagPos pos : Position} (tag_ok : tag ∈ ["Semi", "Expr"])
    (value : Completes .expr s t) :
    Completes .stmtKind (list [leaf (.symbol tag) tagPos, s] pos)
      (list [leaf (.symbol tag) tagPos, t] pos)
  /-- An element of a row is completed. -/
  | element {k k' : NodeKind} {make : List k'.Value → k.Value} {before after : List Tree}
    {s t : Tree} {pos : Position} (shape_eq : k.shape = .row k' make) (value : Completes k' s t) :
    Completes k (list (before ++ s :: after) pos) (list (before ++ t :: after) pos)

/-- What is completed is a list. -/
theorem Completes.isList {k : NodeKind} {s t : Tree} (h : Completes k s t) :
    s.isList = true ∧ t.isList = true := by
  cases h <;> exact ⟨rfl, rfl⟩

end Tree

/-! ## Values of keywords -/

namespace Pair

variable {pairs before after : List Pair} {p : Pair} {name : String}

/-- No value counts for a keyword that is not written. -/
theorem get?_fields_eq_none (h : ∀ p ∈ pairs, p.name ≠ name) :
    (fields pairs).get? name = none := by
  induction pairs with
  | nil => rfl
  | cons p pairs ih =>
    obtain ⟨hp, hpairs⟩ := List.forall_mem_cons.1 h
    rw [get?_fields_cons, ih hpairs, if_neg hp.symm, Option.or_none]

/-- A pair that is appended counts for its keyword, and for no other. -/
theorem get?_fields_concat (pairs : List Pair) (p : Pair) (name : String) :
    (fields (pairs ++ [p])).get? name =
      if name = p.name then some p.value.toPart else (fields pairs).get? name := by
  rw [get?_fields_append, get?_fields_cons]
  split <;> rfl

/-- If the value of a pair is replaced, it counts itself for the keyword of the pair, or nothing
changes. -/
theorem get?_fields_replace (before after : List Pair) (p : Pair) (t : Tree) (name : String) :
    (fields (before ++ p :: after)).get? name =
        (fields (before ++ { p with value := t } :: after)).get? name ∨
      name = p.name ∧ (fields (before ++ p :: after)).get? name = some p.value.toPart ∧
        (fields (before ++ { p with value := t } :: after)).get? name = some t.toPart := by
  simp only [get?_fields_append, get?_fields_cons]
  by_cases hname : name = p.name
  · rw [if_pos hname, if_pos hname]
    cases (fields after).get? name with
    | none => exact .inr ⟨hname, rfl, rfl⟩
    | some q => exact .inl rfl
  · rw [if_neg hname, if_neg hname]
    exact .inl rfl

end Pair

section Values

variable {pos : Position} {fields others : Fields Part} {k : NodeKind} {s t : Tree}

/-- A node is read alike from lists that it is built from alike. -/
theorem Content.read_congr_build {c : Content} (hkind : c.kind? = some k) (hs : s.isList = true)
    (ht : t.isList = true) (h : s.build k = t.build k) : c.read s.toPart = c.read t.toPart := by
  have hnil : ∀ u : Tree, u.isList = true → u.isNil = false := by
    intro u hu
    cases u with
    | list elements pos => rfl
    | leaf l pos => cases hu
    | hole => cases hu
  induction c with
  | node k' =>
    obtain rfl := Option.some.inj hkind
    exact h
  | orNil c ih =>
    rw [read, read, Tree.tree_toPart, Tree.tree_toPart, hnil s hs, hnil t ht, ih hkind]
  | text | flag | word v | integer range | nothing what => cases hkind

/-- So is a field, if they count for its keyword. -/
theorem Field.read_congr_build {f : Field} (hkind : f.kind? = some k) (hs : s.isList = true)
    (ht : t.isList = true) (h : s.build k = t.build k) (hfields : fields.get? f.name = some s.toPart)
    (hothers : others.get? f.name = some t.toPart) : f.read pos fields = f.read pos others := by
  cases f with
  | required name content =>
    rw [read, read, Fields.require, Fields.require,
      show fields.get? name = some s.toPart from hfields,
      show others.get? name = some t.toPart from hothers]
    exact Content.read_congr_build hkind hs ht h
  | optional name content absent =>
    rw [read, read, show fields.get? name = some s.toPart from hfields,
      show others.get? name = some t.toPart from hothers]
    exact Content.read_congr_build hkind hs ht h
  | id => cases hkind

/-- Fields of a list make the same node if each field of the form is read alike. -/
theorem Form.readValues_congr {α : Type} {form : Form α}
    (h : ∀ f ∈ form.fields, f.read pos fields = f.read pos others) :
    form.readValues pos fields = form.readValues pos others := by
  rw [readValues, readValues, Values.read_congr_of_read h]

/-- Fields of a form with the same keyword are the same. -/
theorem Form.eq_of_name_eq {form : Form k.Value} (hform : form ∈ k.forms) {f g : Field}
    (hf : f ∈ form.fields) (hg : g ∈ form.fields) (h : f.name = g.name) : f = g :=
  List.inj_on_of_nodup_map (k.isRegular_of_mem_forms hform).names_distinct hf hg h

end Values

/-! ## Statements with an expression -/

section Statements

variable {k : NodeKind} {form : Form k.Value} {tag : String} {tagPos pos : Position}

/-- A statement with an expression has a form in which the expression may stand without its keyword,
and which reads nothing else. -/
theorem exists_form_of_statement (h : tag ∈ ["Semi", "Expr"]) :
    ∃ form ∈ NodeKind.stmtKind.forms, form.tag = tag ∧ form.bare = some "expr" ∧
      form.fields = [.required "expr" (.node .expr)] := by
  rcases List.mem_pair.1 h with rfl | rfl
  · exact ⟨.semiStmt, .head _, rfl, rfl, rfl⟩
  · exact ⟨.exprStmt, .tail _ (.head _), rfl, rfl, rfl⟩

/-- A list that stands without its keyword counts for this keyword. -/
theorem Form.fieldsOf_bare {name : String} (hbare : form.bare = some name) {e : Tree}
    (he : e.isList = true) :
    form.fieldsOf pos ([.leaf (.symbol form.tag) tagPos, e].map Tree.toPart) =
      .ok (Pair.fields [⟨name, tagPos, e⟩]) := by
  have htag : expectTag form.tag pos
      (([.leaf (.symbol form.tag) tagPos, e].map Tree.toPart).map Part.tree) =
        .ok (form.tag, tagPos) := if_pos rfl
  rw [fieldsOf, htag, hbare]
  exact if_pos he

end Statements

/-! ## Completed trees -/

namespace Tree

variable {k : NodeKind} {s t : Tree}

/-- Completing one list changes nothing that is built. -/
theorem Completes.build_eq (h : Completes k s t) : s.build k = t.build k := by
  induction h with
  | @default k form name content absent pairs d tagPos keyPos pos form_ok field_ok not_written
      default_ok =>
    rw [build_tagged form_ok, build_tagged form_ok]
    apply Form.readValues_congr
    intro f hf
    have hconcat := Pair.get?_fields_concat pairs ⟨name, keyPos, d⟩ f.name
    by_cases hname : f.name = name
    · -- This is the field that is not written. What is appended is read as its default.
      obtain rfl := Form.eq_of_name_eq form_ok hf field_ok hname
      have hnone : (Pair.fields pairs).get? name = none := Pair.get?_fields_eq_none not_written
      have hsome : (Pair.fields (pairs ++ [⟨name, keyPos, d⟩])).get? name = some d.toPart :=
        hconcat.trans (if_pos rfl)
      rw [Field.read, Field.read, hnone, hsome]
      exact (Content.read_default form_ok field_ok default_ok).symm
    · exact Field.read_congr (hconcat.trans (if_neg hname)).symm
  | @keyword tag e tagPos keyPos pos tag_ok list_ok =>
    obtain ⟨form, hform, rfl, hbare, -⟩ := exists_form_of_statement tag_ok
    rw [build_tagged hform, build_of_mem_forms hform,
      Form.readFields_of_fieldsOf (Form.fieldsOf_bare hbare list_ok)]
    rfl
  | @field k k' form f before after s t tagPos keyPos pos form_ok field_ok kind_eq value ih =>
    obtain ⟨hs, ht⟩ := value.isList
    rw [build_tagged form_ok, build_tagged form_ok]
    apply Form.readValues_congr
    intro g hg
    obtain hsame | ⟨hname, hget, hget'⟩ :=
      Pair.get?_fields_replace before after ⟨f.name, keyPos, s⟩ t g.name
    · exact Field.read_congr hsame
    · obtain rfl := Form.eq_of_name_eq form_ok hg field_ok hname
      exact Field.read_congr_build kind_eq hs ht ih hget hget'
  | @expression tag s t tagPos pos tag_ok value ih =>
    obtain ⟨hs, ht⟩ := value.isList
    obtain ⟨form, hform, rfl, hbare, hfields⟩ := exists_form_of_statement tag_ok
    rw [build_of_mem_forms hform, build_of_mem_forms hform,
      Form.readFields_of_fieldsOf (Form.fieldsOf_bare hbare hs),
      Form.readFields_of_fieldsOf (Form.fieldsOf_bare hbare ht)]
    apply Form.readValues_congr
    intro f hf
    rw [hfields] at hf
    obtain rfl := List.mem_singleton.1 hf
    exact Field.read_congr_build rfl hs ht ih rfl rfl
  | @element k k' make before after s t pos shape_eq value ih =>
    have hrow : ∀ u : Tree, (list (before ++ u :: after) pos).build k = do
        let nodes ← ((before ++ u :: after).map fun v => v.build k').mapM id
        return make nodes := by
      intro u
      rw [build_list, shape_eq, List.mapM_map, Shape.read, List.mapM_map]
      rfl
    rw [hrow, hrow, List.map_append, List.map_append, List.map_cons, List.map_cons, ih]

/-- An optional field may be left out or written with its default, and the expression of a statement
may stand with its keyword or without, in any lists of a tree at once.  Every optional field of the
notation has a default that can be written.  If trees differ by any number of such changes, each to a
list that is read when a node of kind `k` is built, then it is built from them alike, wherever the
session begins: the same node with the same ids, or the same fault at the same place, and as many ids
are issued. -/
theorem build_completed (k : NodeKind) :
    (∀ form ∈ k.forms, ∀ (name : String) (content : Content) (absent : content.Value),
      .optional name content absent ∈ form.fields → ∃ d : Tree, d.WritesDefault name) ∧
    ∀ s t : Tree, Relation.EqvGen (Completes k) s t → ∀ start : Int,
      (s.build k).runFrom start = (t.build k).runFrom start := by
  constructor
  · intro form hform name content absent hfield
    obtain ⟨hlisted, -⟩ := k.hasDefault_of_mem_forms hform _ hfield
    obtain ⟨⟨_, d⟩, hentry, rfl⟩ := List.mem_map.1 hlisted
    have hstripped : ∀ entry ∈ writtenDefaults, entry.2.stripPositions = entry.2 := by decide
    refine ⟨d, ?_⟩
    rw [WritesDefault, hstripped _ hentry]
    exact hentry
  · intro s t h start
    have hbuild : s.build k = t.build k := by
      induction h with
      | rel s t h => exact h.build_eq
      | refl s => rfl
      | symm s t _ ih => exact ih.symm
      | trans s t u _ _ ihst ihtu => exact ihst.trans ihtu
    rw [hbuild]

/-- The expression of a statement gets attributes and its keyword, and the statement a span. -/
theorem build_completed_statement :
    let pair := fun name value => (⟨name, .start, value⟩ : Pair)
    let path := tagged "Path" .start [] .start
    let empty := list [] .start
    let short := tagged "Expr" .start [pair "kind" path] .start
    let full := tagged "Expr" .start [pair "kind" path, pair "attrs" empty] .start
    let s := tagged "Stmt" .start
      [pair "kind" (list [leaf (.symbol "Semi") .start, short] .start)] .start
    let t := tagged "Stmt" .start
      [pair "kind" (tagged "Semi" .start [pair "expr" full] .start), pair "span" empty] .start
    Relation.EqvGen (Completes .stmt) s t ∧
      (t.build .stmt).runFrom 7 =
        (.ok ⟨⟨8⟩, .semi { id := ⟨7⟩, kind := .path { span := .dummy, segments := [] } }, .dummy⟩,
          9) := by
  intro pair path empty short full s t
  have hkind : ∀ {e e' : Tree}, Completes .stmtKind e e' →
      Completes .stmt (tagged "Stmt" .start [pair "kind" e] .start)
        (tagged "Stmt" .start [pair "kind" e'] .start) := by
    intro e e' h
    exact @Completes.field .stmt .stmtKind .stmt (.required "kind" (.node .stmtKind)) [] [] e e'
      .start .start .start (.head _) (.head _) rfl h
  have hattrs : Completes .expr short full :=
    @Completes.default .expr .expr "attrs" (.nothing "attribute") () [pair "kind" path] empty .start
      .start .start (.head _) (.head _) (by decide) (by decide)
  have hspan : Completes .stmt
      (tagged "Stmt" .start [pair "kind" (tagged "Semi" .start [pair "expr" full] .start)] .start)
      t :=
    @Completes.default .stmt .stmt "span" (.node .span) .dummy _ empty .start .start .start (.head _)
      (.tail _ (.head _)) (by decide) (by decide)
  have h : Relation.EqvGen (Completes .stmt) s t :=
    .trans _ _ _ (.rel _ _ (hkind (.expression (by decide) hattrs)))
      (.trans _ _ _ (.rel _ _ (hkind (.keyword (by decide) rfl))) (.rel _ _ hspan))
  refine ⟨h, ?_⟩
  rw [← (build_completed .stmt).2 s t h 7]
  rfl

end Tree

end CrateNotation
