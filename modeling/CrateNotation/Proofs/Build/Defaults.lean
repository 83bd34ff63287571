import CrateNotation.Proofs.Build.Places
import CrateNotation.Proofs.Build.Script
import CrateNotation.Proofs.Schema.Catalogue

/-!
# Written defaults

An optional field that is not written has a value all the same, which its form gives as a node or a
word.  The same value can be written, and how it is written depends on the keyword alone: fields with
the same keyword in different forms have the same default.

That a written default is read as what the field has without it is checked for each field of the
notation by computing.  Reading is a computation with a session, so it is run once, in a new session.
Since it takes no ids there, it takes none anywhere and always comes to the same.

## Main Definitions

* `writtenDefaults` — how defaults are written, by keyword
* `Tree.WritesDefault` — a tree is the written default of a keyword

## Main Statements

* `NodeKind.hasDefault_of_mem_forms` — every optional field has a default that can be written
* `Content.read_default` — it is read as what the field has where it is not written
-/

namespace CrateNotation

/-- How the defaults of optional fields are written, by their keywords. -/
def writtenDefaults : List (String × Tree) :=
  (["span", "inner-span", "inject-use-span", "open", "close", "eq-span", "attrs", "params",
      "predicates", "stmts", "segments", "inputs"].map fun name => (name, .list [] .start)) ++
    (["body", "sub", "tokens", "coroutine-kind", "ext", "args"].map fun name =>
      (name, .leaf .nil .start)) ++
    ([("vis", "Inherited"), ("generics", "Generics"), ("header", "FnHeader"), ("decl", "FnDecl"),
      ("output", "Default"), ("where-clause", "WhereClause"), ("binding-mode", "BindingMode"),
      ("spans", "ModSpans"), ("dspan", "DelSpan")].map fun (name, tag) =>
      (name, .list [.leaf (.symbol tag) .start] .start)) ++
    ([("defaultness", "Final"), ("shorthand", "In"), ("safety", "Default"), ("rules", "Default"),
      ("constness", "NotConst"), ("mutability", "Not"), ("delim", "Paren"), ("by-ref", "false"),
      ("has-where-token", "false"), ("is-placeholder", "false")].map fun (name, word) =>
      (name, .leaf (.symbol word) .start)) ++
    (["lo", "hi", "ctxt"].map fun name => (name, .leaf (.number "0") .start)) ++
    [("source", .leaf (.string "") .start)]

/-- `d.WritesDefault name` says that the tree `d`, wherever it stands, is the written default of the
keyword `name`. -/
def Tree.WritesDefault (d : Tree) (name : String) : Prop :=
  (name, d.stripPositions) ∈ writtenDefaults

instance (d : Tree) (name : String) : Decidable (d.WritesDefault name) :=
  inferInstanceAs (Decidable (_ ∈ writtenDefaults))

/-! ## Defaults are read as what they stand for -/

/-- Equality of the words of a vocabulary can be decided. -/
instance Vocabulary.decidableEqWord : (v : Vocabulary) → DecidableEq v.Word
  | delimiter => inferInstanceAs (DecidableEq Delimiter)
  | restriction => inferInstanceAs (DecidableEq Restriction)
  | mutability => inferInstanceAs (DecidableEq Mutability)
  | safety => inferInstanceAs (DecidableEq Safety)
  | constness => inferInstanceAs (DecidableEq Constness)
  | coroutineKind => inferInstanceAs (DecidableEq CoroutineKind)
  | defaultness => inferInstanceAs (DecidableEq Defaultness)
  | blockRules => inferInstanceAs (DecidableEq BlockRules)

/-- Equality of the values of a field can be decided. -/
instance Content.decidableEqValue : (c : Content) → DecidableEq c.Value
  | text => inferInstanceAs (DecidableEq String)
  | flag => inferInstanceAs (DecidableEq Bool)
  | word v => inferInstanceAs (DecidableEq v.Word)
  | integer _ => inferInstanceAs (DecidableEq Int)
  | nothing _ => inferInstanceAs (DecidableEq Unit)
  | node k => inferInstanceAs (DecidableEq k.Value)
  | orNil c =>
    have := decidableEqValue c
    inferInstanceAs (DecidableEq (Option c.Value))

/-- The default of an optional field can be written, and what is written for its keyword is read in a
new session as the default, without an id being issued. -/
def Field.HasDefault : Field → Prop
  | optional name content absent =>
    name ∈ writtenDefaults.map (·.1) ∧ ∀ entry ∈ writtenDefaults, entry.1 = name →
      (content.read entry.2.toPart).runFrom 0 = (.ok absent, 0)
  | required .. | id => True

instance : (f : Field) → Decidable f.HasDefault
  | .optional .. => inferInstanceAs (Decidable (_ ∧ _))
  | .required .. | .id => inferInstanceAs (Decidable True)

/-- Every optional field of the notation has a default that can be written. -/
theorem NodeKind.hasDefault_of_mem_forms (k : NodeKind) {form : Form k.Value} (h : form ∈ k.forms) :
    ∀ f ∈ form.fields, f.HasDefault := by
  have hfields : ∀ k ∈ all, ∀ form ∈ k.forms, ∀ f ∈ form.fields, f.HasDefault := by
    decide +kernel
  exact hfields k k.mem_all_kinds form h

/-! ## Wherever they stand -/

/-- A computation that succeeds at other places succeeds. -/
theorem Build.eq_pure_of_relocate {α : Type} {φ : Position → Position} {x : Build α} {a : α}
    (h : x.relocate φ = pure a) : x = pure a := by
  apply Build.ext
  intro issued
  have hrun := congrArg (Build.runFrom issued) h
  rw [Build.runFrom_relocate, Build.runFrom_pure] at hrun
  rw [Build.runFrom_pure]
  revert hrun
  rcases x.runFrom issued with ⟨e | b, stop⟩
  · nofun
  · exact id

/-- The value of a field is read from a relocated tree as from the tree. -/
theorem Content.read_relocate (φ : Position → Position) (c : Content) (t : Tree) :
    c.read (t.relocate φ).toPart = (c.read t.toPart).relocate φ := by
  have hview := congrArg c.read (t.view_toPart_relocate φ)
  rwa [read_view, read_view, Build.relocate_id] at hview

/-- A written default is read as what the field has where it is not written. -/
theorem Content.read_default {k : NodeKind} {form : Form k.Value} (hform : form ∈ k.forms)
    {name : String} {content : Content} {absent : content.Value}
    (hfield : .optional name content absent ∈ form.fields) {d : Tree}
    (hd : d.WritesDefault name) : content.read d.toPart = pure absent := by
  obtain ⟨-, hdefaults⟩ := k.hasDefault_of_mem_forms hform _ hfield
  have hrun := hdefaults _ hd rfl
  have hscripted : (content.read d.stripPositions.toPart).IsScripted :=
    content.isScripted_read fun k => d.stripPositions.isScripted_build k
  have hread : content.read d.stripPositions.toPart = pure absent :=
    hscripted.eq_pure (by decide) hrun
  rw [Tree.stripPositions_eq_relocate, read_relocate] at hread
  exact Build.eq_pure_of_relocate hread

end CrateNotation
