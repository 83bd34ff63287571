import CrateNotation.Proofs.Build.View
import CrateNotation.Proofs.Schema.Catalogue
import Mathlib.Data.List.Perm.Basic
import Mathlib.Logic.Relation

/-!
# The order of fields

What a list is built as depends on the value that counts for each keyword that is read in it, and on
nothing else that stands behind its tag.  So pairs of a keyword and a value may be put in another
order, as long as the last one with each keyword stays the last; a pair whose keyword is written
again may be left out; and pairs with other keywords may be put in.  This may be done in any lists of
a tree at once.

It matters little whether such a list is written where a list with this tag belongs.  Where a row is
wanted, its first element is found not to be a list; where anything else is wanted, only the list
itself or its head is blamed.

## Main Definitions

* `Pair`, `Tree.tagged` — a list with a tag and pairs behind it
* `Tree.Rearrangement` — a tree with a change to the pairs of one list in it

## Main Statements

* `Tree.build_tagged_congr` — a list is built from the values that count in it
* `Tree.build_rearranged` — rearranged trees are built alike
-/

namespace CrateNotation

/-- A keyword and a value, as they stand in a list. -/
structure Pair where
  name : String
  pos : Position
  value : Tree

/-- The two elements of a list that a pair is. -/
def Pair.trees (p : Pair) : List Tree :=
  [.leaf (.keyword p.name) p.pos, p.value]

namespace Tree

/-- A list with a tag at its head and only pairs behind it. -/
def tagged (tag : String) (tagPos : Position) (pairs : List Pair) (pos : Position) : Tree :=
  list (leaf (.symbol tag) tagPos :: pairs.flatMap Pair.trees) pos

/-- `Rearrangement s t` says that `t` is `s` with a change to the pairs of one list in it. -/
inductive Rearrangement : Tree → Tree → Prop where
  /-- The pairs are in another order, but those with the same keyword in the same. -/
  | permute {tag : String} {tagPos pos : Position} {pairs others : List Pair}
    (perm : pairs.Perm others)
    (order_kept : ∀ name, pairs.filter (·.name = name) = others.filter (·.name = name)) :
    Rearrangement (tagged tag tagPos pairs pos) (tagged tag tagPos others pos)
  /-- A pair is left out whose keyword is written again. -/
  | overridden {tag : String} {tagPos pos : Position} {before after : List Pair} {p : Pair}
    (again : ∃ q ∈ after, q.name = p.name) :
    Rearrangement (tagged tag tagPos (before ++ p :: after) pos)
      (tagged tag tagPos (before ++ after) pos)
  /-- A pair is left out whose keyword is not read. -/
  | unread {tag : String} {tagPos pos : Position} {before after : List Pair} {p : Pair}
    (not_read : p.name ∉ keywordsOf tag) :
    Rearrangement (tagged tag tagPos (before ++ p :: after) pos)
      (tagged tag tagPos (before ++ after) pos)
  /-- An element of a list is changed inside. -/
  | inside {before after : List Tree} {s t : Tree} {pos : Position} (element : Rearrangement s t) :
    Rearrangement (list (before ++ s :: after) pos) (list (before ++ t :: after) pos)

end Tree

/-! ## The values that count -/

namespace Fields

variable {β : Type}

theorem get?_append (pairs more : List (String × β)) (name : String) :
    get? ⟨pairs ++ more⟩ name = (get? ⟨more⟩ name).or (get? ⟨pairs⟩ name) := by
  simp [get?, List.lookup_append]

/-- The value that counts is that of the last pair with its keyword. -/
theorem get?_eq_getLast? (pairs : List (String × β)) (name : String) :
    get? ⟨pairs⟩ name = (pairs.filter (·.1 = name)).getLast?.map (·.2) := by
  induction pairs with
  | nil => rfl
  | cons pair pairs ih =>
    rw [get?_cons, ih]
    by_cases h : pair.1 = name
    · rw [List.filter_cons_of_pos (by simpa using h), List.getLast?_cons, if_pos h.symm]
      cases (pairs.filter (·.1 = name)).getLast? <;> rfl
    · rw [List.filter_cons_of_neg (by simpa using h), if_neg (Ne.symm h), Option.or_none]

/-- Some value counts for a keyword that is written. -/
theorem isSome_get?_of_mem {pairs : List (String × β)} {pair : String × β} (h : pair ∈ pairs) :
    (get? ⟨pairs⟩ pair.1).isSome = true := by
  have hmem : pair ∈ pairs.filter (·.1 = pair.1) :=
    List.mem_filter.2 ⟨h, decide_eq_true rfl⟩
  rw [get?_eq_getLast?, Option.isSome_map, List.getLast?_isSome]
  exact List.ne_nil_of_mem hmem

end Fields

/-- The fields of a list with only pairs behind its tag. -/
def Pair.fields (pairs : List Pair) : Fields Part :=
  ⟨pairs.map fun p => (p.name, p.value.toPart)⟩

namespace Pair

/-- Pairs give the same values if those with the same keyword are the same, in the same order. -/
theorem get?_fields_of_filter_eq {pairs others : List Pair} {name : String}
    (h : pairs.filter (·.name = name) = others.filter (·.name = name)) :
    (fields pairs).get? name = (fields others).get? name := by
  have hfilter : ∀ ps : List Pair, (ps.map fun p => (p.name, p.value.toPart)).filter (·.1 = name) =
      (ps.filter (·.name = name)).map fun p => (p.name, p.value.toPart) := by
    intro ps
    rw [List.filter_map]
    rfl
  rw [fields, fields, Fields.get?_eq_getLast?, Fields.get?_eq_getLast?, hfilter, hfilter, h]

theorem get?_fields_append (pairs more : List Pair) (name : String) :
    (fields (pairs ++ more)).get? name =
      ((fields more).get? name).or ((fields pairs).get? name) := by
  rw [fields, List.map_append, Fields.get?_append]
  rfl

theorem get?_fields_cons (p : Pair) (more : List Pair) (name : String) :
    (fields (p :: more)).get? name =
      ((fields more).get? name).or (if name = p.name then some p.value.toPart else none) :=
  Fields.get?_cons _ _ name

/-- A pair counts only if its keyword is not written again. -/
theorem get?_fields_append_cons {before after : List Pair} {p : Pair} {name : String}
    (h : name = p.name → ∃ q ∈ after, q.name = p.name) :
    (fields (before ++ p :: after)).get? name = (fields (before ++ after)).get? name := by
  rw [get?_fields_append, get?_fields_append, get?_fields_cons]
  by_cases hname : name = p.name
  · -- Some value counts among the pairs behind, so the pair before them does not.
    obtain ⟨q, hq, hqname⟩ := h hname
    have hsome : ((fields after).get? name).isSome = true := by
      rw [hname, ← hqname]
      exact Fields.isSome_get?_of_mem (List.mem_map_of_mem hq)
    rw [Option.or_of_isSome hsome]
  · rw [if_neg hname, Option.or_none]

end Pair

/-- Pairs are read as fields. -/
theorem Fields.ofElements_pairs (pairs : List Pair) :
    Fields.ofElements Part.tree ((pairs.flatMap Pair.trees).map Tree.toPart) =
      .ok (Pair.fields pairs) := by
  induction pairs with
  | nil => rfl
  | cons p pairs ih =>
    rw [List.flatMap_cons]
    show ofElements Part.tree ((Tree.leaf (.keyword p.name) p.pos).toPart :: p.value.toPart ::
      (pairs.flatMap Pair.trees).map Tree.toPart) = _
    rw [ofElements, ih]
    rfl

section Values

variable {pos : Position} {fields others : Fields Part}

theorem Field.read_congr {f : Field} (h : fields.get? f.name = others.get? f.name) :
    f.read pos fields = f.read pos others := by
  cases f with
  | required name content =>
    have hrequire : fields.require name pos = others.require name pos := by
      rw [Fields.require, Fields.require, show fields.get? name = others.get? name from h]
    rw [read, read, hrequire]
  | optional name content absent =>
    rw [read, read, show fields.get? name = others.get? name from h]
  | id => rw [read, read, h]

/-- Fields are read alike if each of them is. -/
theorem Values.read_congr_of_read {fs : List Field}
    (h : ∀ f ∈ fs, f.read pos fields = f.read pos others) :
    Values.read pos fields fs = Values.read pos others fs := by
  induction fs with
  | nil => rfl
  | cons f fs ih =>
    obtain ⟨hf, hfs⟩ := List.forall_mem_cons.1 h
    rw [read, read, hf, ih hfs]

/-- Fields are read alike if the same values count for their keywords. -/
theorem Values.read_congr {fs : List Field}
    (h : ∀ f ∈ fs, fields.get? f.name = others.get? f.name) :
    Values.read pos fields fs = Values.read pos others fs :=
  read_congr_of_read fun f hf => Field.read_congr (h f hf)

end Values

/-! ## Lists with pairs -/

section Tagged

variable {tag : String} {tagPos pos : Position} {pairs others : List Pair}

/-- The fields of a list with pairs are those pairs, if its tag is that of the form. -/
theorem Form.fieldsOf_tagged {α : Type} (form : Form α) (tag : String) (tagPos pos : Position)
    (pairs : List Pair) :
    form.fieldsOf pos ((Tree.leaf (.symbol tag) tagPos :: pairs.flatMap Pair.trees).map Tree.toPart) =
      if tag = form.tag then .ok (Pair.fields pairs)
      else .error (.expected form.tag tag tagPos) := by
  have htag : expectTag form.tag pos
      (((Tree.leaf (.symbol tag) tagPos :: pairs.flatMap Pair.trees).map Tree.toPart).map Part.tree) =
      if tag = form.tag then .ok (tag, tagPos) else .error (.expected form.tag tag tagPos) := rfl
  rw [fieldsOf, htag, List.map_cons, List.tail_cons]
  split
  · have hpairs := Fields.ofElements_pairs pairs
    cases pairs with
    | nil => cases form.bare <;> rfl
    | cons p pairs =>
      -- A pair has two elements, so none of them stands without its keyword.
      cases form.bare <;> exact hpairs
  · rfl

/-- A list with pairs is built from the values that count for the keywords of its form. -/
theorem Form.read_tagged_congr {k : NodeKind} {form : Form k.Value} (hform : form ∈ k.forms)
    (h : ∀ name ∈ keywordsOf tag, (Pair.fields pairs).get? name = (Pair.fields others).get? name) :
    form.read pos ((Tree.leaf (.symbol tag) tagPos :: pairs.flatMap Pair.trees).map Tree.toPart) =
      form.read pos
        ((Tree.leaf (.symbol tag) tagPos :: others.flatMap Pair.trees).map Tree.toPart) := by
  rw [List.map_cons, List.map_cons, read_eq_readFields (.inl (List.cons_ne_nil _ _)),
    read_eq_readFields (.inl (List.cons_ne_nil _ _)), readFields, readFields, ← List.map_cons,
    ← List.map_cons, fieldsOf_tagged, fieldsOf_tagged]
  by_cases htag : tag = form.tag
  · have hvalues : ∀ f ∈ form.fields,
        (Pair.fields pairs).get? f.name = (Pair.fields others).get? f.name := by
      intro f hf
      exact h f.name (htag ▸ mem_keywordsOf hform hf)
    have hread : Values.read pos (Pair.fields pairs) form.fields =
        Values.read pos (Pair.fields others) form.fields := Values.read_congr hvalues
    rw [if_pos htag, if_pos htag]
    show (Values.read pos (Pair.fields pairs) form.fields >>= _) =
      (Values.read pos (Pair.fields others) form.fields >>= _)
    rw [hread]
  · rw [if_neg htag, if_neg htag]

/-- A table has for a list with pairs what it has for the tag. -/
theorem TagTable.select_tagged {β : Type} (table : TagTable β) (elements : List Tree) :
    table.select pos (.leaf (.symbol tag) tagPos :: elements) =
      match table.find? tag with
      | some value => .ok value
      | none => .error (.expected table.expected tag tagPos) :=
  rfl

namespace Tree

/-- The tag of a form of the kind that is wanted selects this form. -/
theorem build_of_mem_forms {k : NodeKind} {form : Form k.Value} (hform : form ∈ k.forms)
    (rest : List Tree) :
    (list (leaf (.symbol form.tag) tagPos :: rest) pos).build k =
      form.readFields pos ((leaf (.symbol form.tag) tagPos :: rest).map toPart) := by
  rw [build_list, List.map_cons, ← Form.read_eq_readFields (.inl (List.cons_ne_nil _ _))]
  rw [NodeKind.forms] at hform
  cases hshape : k.shape with
  | form f =>
    rw [hshape] at hform
    obtain rfl := List.mem_singleton.1 hform
    rfl
  | union table =>
    rw [hshape] at hform
    obtain ⟨⟨tag, f⟩, hentry, rfl⟩ := List.mem_map.1 hform
    obtain rfl : f.tag = tag := k.tag_eq_of_mem_table hshape _ hentry
    show (Build.ofExcept (table.select pos _) >>= _) = _
    rw [table.select_tagged, TagTable.find?_of_mem hentry]
    rfl
  | row k' make =>
    rw [hshape] at hform
    cases hform
  | word v make =>
    rw [hshape] at hform
    cases hform

/-- A list with pairs makes what its form makes of them. -/
theorem build_tagged {k : NodeKind} {form : Form k.Value} (hform : form ∈ k.forms)
    (pairs : List Pair) :
    (tagged form.tag tagPos pairs pos).build k = form.readValues pos (Pair.fields pairs) := by
  have hfields : form.fieldsOf pos
      ((leaf (.symbol form.tag) tagPos :: pairs.flatMap Pair.trees).map toPart) =
        .ok (Pair.fields pairs) := by
    rw [Form.fieldsOf_tagged, if_pos rfl]
  rw [tagged, build_of_mem_forms hform, Form.readFields_of_fieldsOf hfields]

/-- What is built from a list with pairs depends on the values that count for the keywords that are
read in it. -/
theorem build_tagged_congr
    (h : ∀ name ∈ keywordsOf tag, (Pair.fields pairs).get? name = (Pair.fields others).get? name)
    (k : NodeKind) :
    (tagged tag tagPos pairs pos).build k = (tagged tag tagPos others pos).build k := by
  rw [tagged, tagged, build_list, build_list]
  cases hshape : k.shape with
  | form form =>
    exact Form.read_tagged_congr (NodeKind.mem_forms_of_form hshape) h
  | union table =>
    -- The tag selects the same form for both.
    rw [Shape.read, Shape.read]
    show (Build.ofExcept (table.select pos _) >>= _) = (Build.ofExcept (table.select pos _) >>= _)
    rw [table.select_tagged, table.select_tagged]
    cases hfind : table.find? tag with
    | none => rfl
    | some form => exact Form.read_tagged_congr (NodeKind.mem_forms_of_find? hshape hfind) h
  | row elementKind make =>
    -- The tag is no list, but every element of a row must be one.
    obtain ⟨form, hform⟩ := k.exists_form_of_row hshape
    have hhead : ∀ ps : List Pair,
        ((leaf (.symbol tag) tagPos :: ps.flatMap Pair.trees).map toPart).mapM
            (fun p => p.build elementKind) =
          Build.ofExcept (.error (.blame "list" (leaf (.symbol tag) tagPos))) := by
      intro ps
      rw [List.map_cons, List.mapM_cons, build_toPart, build, hform]
      rfl
    rw [Shape.read, Shape.read, hhead, hhead]
    rfl
  | word v make => rfl

end Tree

end Tagged

/-! ## Rearranged trees -/

namespace Tree

variable {s t : Tree}

/-- A list is seen at a glance by its head, which stays. -/
theorem Rearrangement.glance_eq (h : Rearrangement s t) : s.glance id = t.glance id := by
  induction h with
  | permute => rfl
  | overridden => rfl
  | unread => rfl
  | @inside before after s t pos _ ih =>
    rw [glance_list, glance_list]
    cases before with
    | nil => rw [List.nil_append, List.nil_append, List.take_one, List.take_one, List.head?_cons,
        List.head?_cons, Option.toList_some, Option.toList_some, List.map_singleton,
        List.map_singleton, ih]
    | cons u before => rfl

/-- One change to the pairs of one list changes nothing that is built. -/
theorem Rearrangement.build_eq (h : Rearrangement s t) (k : NodeKind) : s.build k = t.build k := by
  induction h generalizing k with
  | permute perm order_kept =>
    apply build_tagged_congr
    intro name _
    exact Pair.get?_fields_of_filter_eq (order_kept name)
  | overridden again =>
    apply build_tagged_congr
    intro name _
    exact Pair.get?_fields_append_cons fun _ => again
  | unread not_read =>
    apply build_tagged_congr
    intro name hname
    exact Pair.get?_fields_append_cons fun heq => absurd (heq ▸ hname) not_read
  | @inside before after s t pos element ih =>
    have hview : s.toPart.view id = t.toPart.view id := by
      rw [Part.view, Part.view, Part.mk.injEq]
      refine ⟨element.glance_eq, ?_⟩
      funext k
      rw [build_toPart, build_toPart, ih k]
    have hcongr := @build_list_congr id id (before ++ s :: after) (before ++ t :: after) pos pos rfl
      (by rw [List.map_append, List.map_append, List.map_cons, List.map_cons, hview]) k
    rwa [Build.relocate_id, Build.relocate_id] at hcongr

/-- The order of fields, overridden fields and unknown fields do not matter.  If trees differ by any
number of changes to the pairs of their lists, then every kind of node is built from them alike,
wherever the session begins: the same node with the same ids, or the same fault at the same place,
and as many ids are issued. -/
theorem build_rearranged (h : Relation.EqvGen Rearrangement s t) (k : NodeKind) (start : Int) :
    (s.build k).runFrom start = (t.build k).runFrom start := by
  have hbuild : s.build k = t.build k := by
    induction h with
    | rel s t h => exact h.build_eq k
    | refl s => rfl
    | symm s t _ ih => exact ih.symm
    | trans s t u _ _ ihst ihtu => exact ihst.trans ihtu
  rw [hbuild]

/-- A name that is overridden and a note that nobody reads are left out of an identifier inside a
path segment, and its fields are put in the other order.  The segment is built as before. -/
theorem build_rearranged_segment :
    let ident := fun pairs => tagged "Ident" .start pairs .start
    let segment := fun t =>
      list ([leaf (.symbol "PathSegment") .start, leaf (.keyword "ident") .start] ++ t :: []) .start
    let old : Pair := ⟨"name", .start, leaf (.string "x") .start⟩
    let name : Pair := ⟨"name", .start, leaf (.string "y") .start⟩
    let note : Pair := ⟨"note", .start, leaf .nil .start⟩
    let span : Pair := ⟨"span", .start, list [] .start⟩
    Relation.EqvGen Rearrangement (segment (ident [old, note, span, name]))
        (segment (ident [name, span])) ∧
      ((segment (ident [old, note, span, name])).build .pathSegment).runFrom 7 =
        (.ok { ident := { name := "y" }, id := ⟨7⟩ }, 8) := by
  intro ident segment old name note span
  have hoverridden : Rearrangement (ident ([] ++ old :: [note, span, name]))
      (ident ([] ++ [note, span, name])) :=
    .overridden ⟨name, List.mem_of_getLast? rfl, rfl⟩
  have hunread : Rearrangement (ident ([] ++ note :: [span, name])) (ident ([] ++ [span, name])) :=
    .unread (by decide)
  have hpermute : Rearrangement (ident [span, name]) (ident [name, span]) := by
    refine .permute (List.Perm.swap name span []) ?_
    intro key
    by_cases hkey : "span" = key
    · subst hkey
      rfl
    · simp [List.filter_cons, span, hkey]
  have h : Relation.EqvGen Rearrangement (segment (ident [old, note, span, name]))
      (segment (ident [name, span])) := by
    refine .trans _ _ _ (.rel _ _ (Rearrangement.inside hoverridden)) ?_
    refine .trans _ _ _ (.rel _ _ (Rearrangement.inside hunread)) ?_
    exact .rel _ _ (Rearrangement.inside hpermute)
  refine ⟨h, ?_⟩
  rw [build_rearranged h]
  rfl

end Tree

end CrateNotation
