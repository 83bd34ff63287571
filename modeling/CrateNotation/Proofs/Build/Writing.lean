import CrateNotation.FrontEnd
import CrateNotation.Proofs.Build.Failure
import CrateNotation.Proofs.Build.Rearrangement
import CrateNotation.Proofs.Schema.Complete
import CrateNotation.Proofs.Schema.Regular

/-!
# Writing nodes

Every valid node can be written.  Its form makes it of values, and for each field a pair is written
of the keyword and the value, dummies and empty lists included.  No field is left out, so none is
taken for what stands for it, and no id comes from the session.

Nodes are written from the smallest up: a tree is found for each value that is a node, because that
node is smaller, and every other value is a leaf or the empty list.  Building from such a tree is
the computation that returns the node at once, so it fails nowhere and takes no ids.

A crate is read from the text in which the tree for it is printed.

## Main Definitions

* `Tree.ofWord`, `Tree.ofFlag`, `Tree.ofInt` — values as leaves
* `Tree.IsWrittenFor`, `NodeKind.Writable` — nodes for which there is a tree

## Main Statements

* `NodeKind.writable_of_valid` — every valid node can be written
* `Crate.exists_text_of_valid` — every valid crate is the crate of a text
-/

namespace CrateNotation

open Text (Numeral)

/-! ## Leaves -/

namespace Tree

/-- A word as it is written. -/
def ofWord (v : Vocabulary) (w : v.Word) : Tree :=
  leaf (.symbol (v.text w)) .start

theorem lexable_ofWord (v : Vocabulary) (w : v.Word) : (ofWord v w).Lexable :=
  .leaf _ (v.isSymbol_text w)

theorem expectWord_ofWord (v : Vocabulary) (w : v.Word) : (ofWord v w).expectWord v = .ok w := by
  unfold ofWord expectWord expectSymbol
  simp only [bind, Except.bind, v.find?_text]
  rfl

/-- A truth value as it is written. -/
def ofFlag (b : Bool) : Tree :=
  leaf (.symbol (if b then "true" else "false")) .start

theorem lexable_ofFlag (b : Bool) : (ofFlag b).Lexable := by
  apply Lexable.leaf
  show IsSymbol (if b then "true" else "false").toList
  cases b <;> exact ⟨isName_of_isPlainName (by decide), by decide⟩

theorem expectFlag_ofFlag (b : Bool) : (ofFlag b).expectFlag = .ok b := by
  cases b <;> rfl

/-- An integer as it is written. -/
def ofInt (n : Int) : Tree :=
  leaf (.number (String.ofList (Numeral.decimal n).text)) .start

theorem lexable_ofInt (n : Int) : (ofInt n).Lexable := by
  apply Lexable.leaf
  show IsNumber (String.ofList (Numeral.decimal n).text).toList
  rw [String.toList_ofList]
  exact Numeral.isNumber_decimal n

/-- An integer of a range is read from its numeral. -/
theorem expectIn_ofInt {range : IntRange} (hrange : range.IsReadable) {n : Int}
    (h : range.lo ≤ n ∧ n ≤ range.hi) : (ofInt n).expectIn range = .ok n := by
  have htext : Numeral.ofText? (String.ofList (Numeral.decimal n).text).toList =
      some (Numeral.decimal n) := by
    rw [String.toList_ofList]
    exact Numeral.ofText?_decimal n
  have hsmall : n.natAbs < 10 ^ Numeral.digitLimit := by
    obtain ⟨hlo, hhi⟩ := hrange
    omega
  have hdigits := Numeral.length_decimal_le hsmall
  rw [ofInt, expectIn_numeral htext, if_neg (Nat.not_lt.2 hdigits), Numeral.value_decimal, if_pos h]

end Tree

/-! ## Values -/

/-- A tree is written for a node: a text can hold it, and the node is built from it without an id
being issued. -/
structure Tree.IsWrittenFor (t : Tree) (k : NodeKind) (value : k.Value) : Prop where
  lexable : t.Lexable
  not_nil : t.isNil = false
  build_eq : t.build k = pure value

/-- Some tree is written for a node. -/
def NodeKind.Writable (k : NodeKind) (value : k.Value) : Prop :=
  ∃ t : Tree, t.IsWrittenFor k value

/-- All valid nodes smaller than `n` can be written. -/
def WritableBelow (n : Nat) : Prop :=
  ∀ (k : NodeKind) (value : k.Value), k.Valid value → k.size value < n → k.Writable value

section Values

variable {n : Nat} (ih : WritableBelow n)

include ih

/-- A value is read from some tree, which is `nil` only where a value may be. -/
theorem Content.exists_written {c : Content} (hc : c.IsRegular) {value : c.Value}
    (hvalid : ∀ d ∈ c.details value, d.Valid) (hbelow : c.Below n value) :
    ∃ t : Tree, t.Lexable ∧ (c.isOrNil = false → t.isNil = false) ∧
      c.read t.toPart = pure value := by
  induction c with
  | text => exact ⟨.leaf (.string value) .start, .leaf _ trivial, fun _ => rfl, rfl⟩
  | flag =>
    refine ⟨.ofFlag value, Tree.lexable_ofFlag value, fun _ => rfl, ?_⟩
    rw [read, Tree.tree_toPart, Tree.expectFlag_ofFlag]
    rfl
  | word v =>
    refine ⟨.ofWord v value, Tree.lexable_ofWord v value, fun _ => rfl, ?_⟩
    rw [read, Tree.tree_toPart, Tree.expectWord_ofWord]
    rfl
  | integer range =>
    have hrange : range.lo ≤ value ∧ value ≤ range.hi :=
      hvalid (.integer range value) (List.mem_singleton_self _)
    refine ⟨.ofInt value, Tree.lexable_ofInt value, fun _ => rfl, ?_⟩
    rw [read, Tree.tree_toPart, Tree.expectIn_ofInt hc hrange]
    rfl
  | nothing what => exact ⟨.list [] .start, .list _ (by simp), fun _ => rfl, rfl⟩
  | node k =>
    obtain ⟨t, ht⟩ := ih k value hvalid hbelow
    exact ⟨t, ht.lexable, fun _ => ht.not_nil, ht.build_eq⟩
  | orNil c ihc =>
    cases value with
    | none => exact ⟨.leaf .nil .start, .leaf _ trivial, by simp [isOrNil], rfl⟩
    | some a =>
      obtain ⟨t, hlexable, hnil, hread⟩ := ihc hc.2 hvalid (hbelow a rfl)
      refine ⟨t, hlexable, by simp [isOrNil], ?_⟩
      rw [read, Tree.tree_toPart, hnil hc.1, hread, map_pure]
      rfl

/-- The value of a field is read from some tree, wherever that counts for the keyword. -/
theorem Field.exists_written {f : Field} (hf : f.IsRegular) {value : f.Value}
    (hvalid : ∀ d ∈ f.details value, d.Valid) (hbelow : f.Below n value) :
    ∃ t : Tree, t.Lexable ∧ ∀ (pos : Position) (fields : Fields Part),
      fields.get? f.name = some t.toPart → f.read pos fields = pure value := by
  cases f with
  | required name content =>
    obtain ⟨t, hlexable, -, hread⟩ := Content.exists_written ih hf hvalid hbelow
    refine ⟨t, hlexable, ?_⟩
    intro pos fields hget
    have hrequire : fields.require name pos = .ok t.toPart := by
      rw [Fields.require, show fields.get? name = _ from hget]
    rw [read, hrequire]
    exact hread
  | optional name content absent =>
    obtain ⟨t, hlexable, -, hread⟩ := Content.exists_written ih hf hvalid hbelow
    refine ⟨t, hlexable, ?_⟩
    intro pos fields hget
    rw [read, show fields.get? name = _ from hget]
    exact hread
  | id =>
    have hrange : 0 ≤ value.value ∧ value.value ≤ maxIndex :=
      hvalid (.id value) (List.mem_singleton_self _)
    refine ⟨.ofInt value.value, Tree.lexable_ofInt _, ?_⟩
    intro pos fields hget
    rw [read, hget]
    show NodeId.mk <$> Build.ofExcept ((Tree.ofInt value.value).expectIn nodeIdRange) = _
    rw [Tree.expectIn_ofInt hf hrange]
    rfl

/-- The values of fields are read from pairs, one for each field, wherever all of those count. -/
theorem Values.exists_written {fs : List Field} (hfs : ∀ f ∈ fs, f.IsRegular) {values : Values fs}
    (hvalid : ∀ d ∈ Values.details fs values, d.Valid) (hbelow : Values.Below n fs values) :
    ∃ pairs : List Pair, pairs.map Pair.name = fs.map Field.name ∧
      (∀ p ∈ pairs, p.value.Lexable) ∧
      ∀ (pos : Position) (fields : Fields Part),
        (∀ p ∈ pairs, fields.get? p.name = some p.value.toPart) →
          Values.read pos fields fs = pure values := by
  induction fs with
  | nil => exact ⟨[], rfl, by simp, fun _ _ _ => rfl⟩
  | cons f fs ihfs =>
    obtain ⟨value, values⟩ := values
    obtain ⟨hf, hfs⟩ := List.forall_mem_cons.1 hfs
    obtain ⟨hvalue, hvalues⟩ := List.forall_mem_append.1 hvalid
    obtain ⟨t, hlexable, hread⟩ := Field.exists_written ih hf hvalue hbelow.1
    obtain ⟨pairs, hnames, hlexables, hreads⟩ := ihfs hfs hvalues hbelow.2
    refine ⟨⟨f.name, .start, t⟩ :: pairs, ?_, List.forall_mem_cons.2 ⟨hlexable, hlexables⟩, ?_⟩
    · rw [List.map_cons, hnames, List.map_cons]
    · intro pos fields hget
      obtain ⟨hfirst, hmore⟩ := List.forall_mem_cons.1 hget
      rw [read, hread pos fields hfirst, pure_bind, hreads pos fields hmore, pure_bind]

end Values

/-! ## Lists -/

/-- The value of a pair counts if no keyword is written twice. -/
theorem Fields.get?_of_mem {β : Type} {pairs : List (String × β)} {pair : String × β}
    (hdistinct : (pairs.map (·.1)).Nodup) (h : pair ∈ pairs) :
    get? ⟨pairs⟩ pair.1 = some pair.2 := by
  have hsome := isSome_get?_of_mem h
  rw [get?_eq_getLast?, Option.isSome_map, Option.isSome_iff_exists] at hsome
  obtain ⟨last, hlast⟩ := hsome
  obtain ⟨hmem, hname⟩ := List.mem_filter.1 (List.mem_of_getLast? hlast)
  obtain rfl := List.inj_on_of_nodup_map hdistinct hmem h (of_decide_eq_true hname)
  rw [get?_eq_getLast?, hlast]
  rfl

section Forms

variable {α : Type} {form : Form α} {pairs : List Pair}

/-- A list can be written that has a pair for each field of a regular form. -/
theorem Form.IsRegular.lexable_tagged (h : form.IsRegular)
    (hnames : pairs.map Pair.name = form.fields.map Field.name)
    (hvalues : ∀ p ∈ pairs, p.value.Lexable) :
    (Tree.tagged form.tag .start pairs .start).Lexable := by
  refine .list _ (List.forall_mem_cons.2 ⟨.leaf _ h.tag_ok, ?_⟩)
  intro t ht
  obtain ⟨p, hp, ht⟩ := List.mem_flatMap.1 ht
  obtain ⟨f, hf, hname⟩ : ∃ f ∈ form.fields, f.name = p.name :=
    List.mem_map.1 (hnames ▸ List.mem_map_of_mem hp)
  have hkeyword : (Leaf.keyword p.name).Lexable := by
    rw [← hname]
    exact h.names_ok f hf
  rcases List.mem_pair.1 ht with rfl | rfl
  · exact .leaf _ hkeyword
  · exact hvalues p hp

/-- In such a list every value counts. -/
theorem Form.IsRegular.get?_fields (h : form.IsRegular)
    (hnames : pairs.map Pair.name = form.fields.map Field.name) {p : Pair} (hp : p ∈ pairs) :
    (Pair.fields pairs).get? p.name = some p.value.toPart := by
  have hdistinct : ((Pair.fields pairs).pairs.map (·.1)).Nodup := by
    rw [Pair.fields, List.map_map]
    exact hnames ▸ h.names_distinct
  exact Fields.get?_of_mem hdistinct (List.mem_map_of_mem hp)

end Forms

/-- A node that a form makes can be written, as a list in this form. -/
theorem Form.Makes.writable {n : Nat} (ih : WritableBelow n) {k : NodeKind} {form : Form k.Value}
    (hform : form ∈ k.forms) {value : k.Value} (h : form.Makes n value) : k.Writable value := by
  have hregular := k.isRegular_of_mem_forms hform
  obtain ⟨values, rfl, haccepted, hvalid, hbelow⟩ := h
  obtain ⟨pairs, hnames, hlexable, hread⟩ :=
    Values.exists_written ih hregular.fields_ok hvalid hbelow
  have hvalues := hread .start (Pair.fields pairs) fun p hp => hregular.get?_fields hnames hp
  refine ⟨.tagged form.tag .start pairs .start, hregular.lexable_tagged hnames hlexable, rfl, ?_⟩
  rw [Tree.build_tagged hform, readValues, hvalues, pure_bind, haccepted]

/-- Each node of a row can be written. -/
theorem exists_row_written {k : NodeKind} {nodes : List k.Value}
    (h : ∀ node ∈ nodes, k.Writable node) :
    ∃ elements : List Tree, (∀ t ∈ elements, t.Lexable) ∧
      (elements.map Tree.toPart).mapM (fun p => p.build k) = (pure nodes : Build _) := by
  induction nodes with
  | nil => exact ⟨[], by simp, rfl⟩
  | cons node nodes ih =>
    obtain ⟨⟨t, ht⟩, hnodes⟩ := List.forall_mem_cons.1 h
    obtain ⟨elements, hlexable, hread⟩ := ih hnodes
    refine ⟨t :: elements, List.forall_mem_cons.2 ⟨ht.lexable, hlexable⟩, ?_⟩
    rw [List.map_cons, List.mapM_cons, Tree.build_toPart, ht.build_eq, pure_bind, hread, pure_bind]

namespace NodeKind

/-- A node can be written if all smaller ones can. -/
theorem writable_of_below (k : NodeKind) {value : k.Value} (hvalid : k.Valid value)
    (ih : WritableBelow (k.size value)) : k.Writable value := by
  have hmakes := k.makes_of_valid hvalid
  cases hshape : k.shape with
  | form form =>
    rw [hshape] at hmakes
    exact Form.Makes.writable ih (mem_forms_of_form hshape) hmakes
  | union table =>
    rw [hshape] at hmakes
    obtain ⟨entry, hentry, hmakes⟩ := hmakes
    exact Form.Makes.writable ih (mem_forms_of_mem_table hshape hentry) hmakes
  | row elementKind make =>
    rw [hshape] at hmakes
    obtain ⟨nodes, rfl, hnodes⟩ := hmakes
    obtain ⟨elements, hlexable, hread⟩ :=
      exists_row_written fun node hnode => ih _ node (hnodes node hnode).1 (hnodes node hnode).2
    refine ⟨.list elements .start, .list _ hlexable, rfl, ?_⟩
    rw [Tree.build_list, hshape]
    show ((elements.map Tree.toPart).mapM (fun p => p.build elementKind) >>= _) = _
    rw [hread, pure_bind]
  | word v make =>
    rw [hshape] at hmakes
    obtain ⟨w, rfl⟩ := hmakes
    refine ⟨.ofWord v w, Tree.lexable_ofWord v w, rfl, ?_⟩
    rw [Tree.ofWord, Tree.build, hshape]
    show make <$> Build.ofExcept ((Tree.ofWord v w).expectWord v) = _
    rw [Tree.expectWord_ofWord]
    rfl

/-- Every valid node can be written. -/
theorem writable_of_valid (k : NodeKind) {value : k.Value} (h : k.Valid value) :
    k.Writable value := by
  induction hsize : k.size value using Nat.strong_induction_on generalizing k with
  | h n ih =>
    apply k.writable_of_below h
    intro k' value' h' hlt
    exact ih _ (hsize ▸ hlt) k' h' rfl

end NodeKind

/-! ## Crates -/

/-- An outcome without a fault has no place to lose. -/
theorem Build.eq_ok_of_withoutPlaces {α : Type} {outcome : Except Fault α × Int} {a : α}
    {issued : Int} (h : withoutPlaces outcome = (.ok a, issued)) : outcome = (.ok a, issued) := by
  rcases outcome with ⟨e | b, stop⟩
  · cases h
  · exact h

/-- Every valid crate is the crate of some text, if lists may nest deeply enough, and no ids are
issued to its nodes.  A crate is valid if all ids, spans and integer literals in it are within
bounds, no span runs backwards, and nothing is there that is not accepted yet. -/
theorem Crate.exists_text_of_valid (c : Crate) (h : NodeKind.crate.Valid c) :
    ∃ (text : String) (maxDepth : Nat) (maxDepth_pos : 0 < maxDepth), ∀ requireEnd : Bool,
      ofText ⟨maxDepth, requireEnd, maxDepth_pos⟩ text = (.ok c, 0) := by
  obtain ⟨t, hlexable, -, hbuild⟩ := NodeKind.crate.writable_of_valid h
  refine ⟨t.render {}, t.nesting + 1, Nat.succ_pos _, ?_⟩
  intro requireEnd
  obtain ⟨found, hread, -, hstrip⟩ :=
    @Tree.ofText_render ⟨t.nesting + 1, requireEnd, Nat.succ_pos _⟩ {} t hlexable (Nat.le_succ _)
  rw [ofText, hread]
  -- What is read is the tree but for its positions, which only a fault would show.
  apply Build.eq_ok_of_withoutPlaces
  rw [← Tree.runFrom_build_stripPositions, hstrip, Tree.runFrom_build_stripPositions, hbuild]
  rfl

/-- A crate with a function whose parameter is bound twice, with all kinds of statements, and with
one id for many nodes, is the crate of some text. -/
theorem Crate.exists_text_of_valid_function :
    let path : Path :=
      { span := ⟨3, 9, 1⟩, segments := [{ ident := { name := "a b" }, args := some {} }],
        tokens := some { source := "\n" } }
    let name : Pat := .bind ⟨7⟩ {} { name := "" } ⟨0, maxIndex, maxIndex⟩
    let mode : BindingMode := { byRef := true, mutability := .mutable }
    let whole : Pat := .bindAt ⟨7⟩ mode { name := "x" } name .dummy
    let int : Expr := { id := ⟨7⟩, kind := .lit { kind := .int (-2 ^ 127) } }
    let call : Expr :=
      { id := .dummy, kind := .macCall { path, args := .delimited {} .invisible none } }
    let body : Block :=
      { stmts := [⟨⟨7⟩, .semi call, .dummy⟩, ⟨⟨7⟩, .empty, .dummy⟩, ⟨⟨7⟩, .expr int, .dummy⟩],
        id := ⟨7⟩, rules := .unsafeRules }
    let param : Param := { ty := { id := ⟨7⟩, kind := .path path }, pat := whole, id := ⟨7⟩ }
    let header : FnHeader := { coroutineKind := some .gen, ext := some "C" }
    let fn : Fn :=
      { sig := { header, decl := { inputs := [param] } }, defaultness := .default,
        body := some body }
    let item : Item :=
      { id := ⟨7⟩, ident := { name := "f" }, kind := .fn fn, vis := .restricted path .super .dummy }
    let c : Crate := { items := [item], spans := {}, id := ⟨7⟩, isPlaceholder := true }
    NodeKind.crate.Valid c ∧
      ∃ (text : String) (maxDepth : Nat) (maxDepth_pos : 0 < maxDepth), ∀ requireEnd : Bool,
        ofText ⟨maxDepth, requireEnd, maxDepth_pos⟩ text = (.ok c, 0) := by
  intro path name mode whole int call body param header fn item c
  have hvalid : NodeKind.crate.Valid c := by decide
  exact ⟨hvalid, exists_text_of_valid c hvalid⟩

end CrateNotation
