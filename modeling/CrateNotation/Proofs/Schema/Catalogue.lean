import CrateNotation.Schema.Forms
import Mathlib.Tactic.Common

/-!
# The forms of the notation

A kind of nodes has one form, or the forms of its table, or none if it is written as a row or as a
word.  What is proved of the forms of all kinds is proved of everything that is read field by field.

The same tag can stand at the head of lists of different kinds.  A keyword that none of their forms
has is read in no list with that tag.

## Main Definitions

* `NodeKind.forms` — the forms of a kind
* `keywordsOf` — the keywords that are read in lists with a tag

## Main Statements

* `NodeKind.tag_eq_of_mem_table` — a table lists every form under its own tag
* `NodeKind.exists_form_of_row` — the elements of a row are lists in a form
-/

namespace CrateNotation

/-- The forms that a shape lists. -/
def Shape.forms {α : Type} : Shape α → List (Form α)
  | form f => [f]
  | union table => table.entries.map (·.2)
  | row .. | word .. => []

/-- What a table has for a tag is listed with that tag. -/
theorem TagTable.mem_of_find? {β : Type} {table : TagTable β} {tag : String} {value : β}
    (h : table.find? tag = some value) : (tag, value) ∈ table.entries := by
  obtain ⟨before, after, hentries, -⟩ := List.lookup_eq_some_iff.1 h
  rw [hentries]
  exact List.mem_append_right before List.mem_cons_self

/-- What a table lists with a tag is found for the tag, since no tag is listed twice. -/
theorem TagTable.find?_of_mem {β : Type} {table : TagTable β} {tag : String} {value : β}
    (h : (tag, value) ∈ table.entries) : table.find? tag = some value := by
  obtain ⟨before, after, hentries⟩ := List.append_of_mem h
  refine List.lookup_eq_some_iff.2 ⟨before, after, hentries, ?_⟩
  intro entry hentry
  have hdistinct := table.distinct
  rw [hentries, List.map_append, List.nodup_append] at hdistinct
  have hne := hdistinct.2.2 entry.1 (List.mem_map_of_mem hentry) tag List.mem_cons_self
  exact bne_iff_ne.2 hne.symm

namespace NodeKind

/-- The forms of the nodes of a kind. -/
def forms (k : NodeKind) : List (Form k.Value) :=
  k.shape.forms

/-- A form of its own is a form of a kind. -/
theorem mem_forms_of_form {k : NodeKind} {form : Form k.Value} (h : k.shape = .form form) :
    form ∈ k.forms := by
  rw [forms, h]
  exact List.mem_singleton_self form

/-- What a table lists is a form of its kind. -/
theorem mem_forms_of_mem_table {k : NodeKind} {table : TagTable (Form k.Value)}
    (h : k.shape = .union table) {entry : String × Form k.Value} (hentry : entry ∈ table.entries) :
    entry.2 ∈ k.forms := by
  rw [forms, h]
  exact List.mem_map_of_mem hentry

/-- What a table has for a tag is a form of its kind. -/
theorem mem_forms_of_find? {k : NodeKind} {table : TagTable (Form k.Value)}
    (h : k.shape = .union table) {tag : String} {form : Form k.Value}
    (hfind : table.find? tag = some form) : form ∈ k.forms :=
  mem_forms_of_mem_table h (TagTable.mem_of_find? hfind)

/-- All kinds of nodes. -/
def all : List NodeKind :=
  [crate, items, item, visibility, itemKind, fn, fnSig, fnHeader, fnDecl, params, param, returnTy,
    generics, whereClause, ty, tyKind, pat, patKind, bindingMode, block, stmts, stmt, stmtKind, expr,
    exprKind, macCall, lit, litKind, macArgs, delimiter, path, pathSegments, pathSegment,
    genericArgs, span, modSpans, delSpan, ident, tokenStream]

theorem mem_all_kinds (k : NodeKind) : k ∈ all := by
  cases k <;> decide

/-- Every form of a union is listed under its own tag. -/
theorem tag_eq_of_mem_table (k : NodeKind) {table : TagTable (Form k.Value)}
    (h : k.shape = .union table) : ∀ entry ∈ table.entries, entry.2.tag = entry.1 := by
  have hlisted : table.entries.all (fun entry => entry.2.tag = entry.1) = true := by
    cases k <;> cases h <;> rfl
  intro entry hentry
  exact of_decide_eq_true (List.all_eq_true.1 hlisted entry hentry)

/-- The elements of a row are lists in a form. -/
theorem exists_form_of_row (k : NodeKind) {elementKind : NodeKind}
    {make : List elementKind.Value → k.Value} (h : k.shape = .row elementKind make) :
    ∃ form, elementKind.shape = .form form := by
  cases k <;> cases h <;> exact ⟨_, rfl⟩

end NodeKind

/-- The keywords that are read in lists with a tag, whatever such a list is read as. -/
def keywordsOf (tag : String) : List String :=
  NodeKind.all.flatMap fun k =>
    (k.forms.filter (·.tag = tag)).flatMap fun form => form.fields.map Field.name

/-- The keywords of a form are read in lists with its tag. -/
theorem mem_keywordsOf {k : NodeKind} {form : Form k.Value} (hform : form ∈ k.forms) {f : Field}
    (hf : f ∈ form.fields) : f.name ∈ keywordsOf form.tag := by
  refine List.mem_flatMap.2 ⟨k, k.mem_all_kinds, List.mem_flatMap.2 ⟨form, ?_, ?_⟩⟩
  · exact List.mem_filter.2 ⟨hform, decide_eq_true rfl⟩
  · exact List.mem_map_of_mem hf

/-- An expression and an expression statement have the same tag. -/
example : keywordsOf "Expr" = ["expr", "attrs", "kind", "span", "id"] := by decide

end CrateNotation
