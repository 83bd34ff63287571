import CrateNotation.Proofs.Build.View
import CrateNotation.Proofs.Tree.RoundTrip

/-!
# Building does not look at positions

Positions are handed on to faults and are used for nothing else.  If a tree is put at other places,
the same node is built from it and the same ids are issued, or the same fault is found at another
place.  This holds of every way to move a tree, and in particular of resetting all of its positions.

A text can be laid out anew by reading it and printing what is read.  The tree that is read from the
new text differs from the first one in positions only, so both texts are written for the same nodes.

## Main Definitions

* `Build.withoutPlaces` — what a build comes to, apart from positions

## Main Statements

* `Tree.build_relocate` — a relocated tree is built as before, with faults at other places
* `Tree.build_layout_independent` — building does not depend on layout
-/

namespace CrateNotation

/-- What a build comes to, with the place of a fault reset: the node or the fault, and the number of
ids issued. -/
def Build.withoutPlaces {α : Type} (outcome : Except Fault α × Int) : Except Fault α × Int :=
  (relocateResult (fun _ => .start) id outcome.1, outcome.2)

namespace Tree

/-- A tree at other places is built as before, with faults at other places. -/
theorem build_relocate (φ : Position → Position) (t : Tree) (k : NodeKind) :
    (t.relocate φ).build k = (t.build k).relocate φ := by
  induction t generalizing k with
  | leaf l pos => exact k.shape.read_view φ (leaf l pos) []
  | list elements pos ih =>
    have hviews : (elements.map (relocate φ)).map (fun t => t.toPart.view id) =
        elements.map fun t => t.toPart.view φ := by
      rw [List.map_map]
      apply List.map_congr_left
      intro t ht
      -- At a glance the element is seen at its new place, where it is built as by induction.
      show (⟨_, _⟩ : Part) = ⟨_, _⟩
      rw [Part.mk.injEq]
      refine ⟨glance_relocate φ t, ?_⟩
      funext k
      rw [build_toPart, Build.relocate_id]
      exact ih t ht k
    have hcongr := @build_list_congr id φ (elements.map (relocate φ)) elements (φ pos) pos rfl
      hviews k
    rwa [Build.relocate_id, ← relocateAll_eq_map] at hcongr
  | hole => exact k.shape.read_view φ hole []

/-- What building looks at in a relocated tree is what it looks at in the tree, at other places. -/
theorem view_toPart_relocate (φ : Position → Position) (t : Tree) :
    (t.relocate φ).toPart.view id = t.toPart.view φ := by
  rw [Part.view, Part.view, Part.mk.injEq]
  refine ⟨glance_relocate φ t, ?_⟩
  funext k
  rw [build_toPart, Build.relocate_id]
  exact t.build_relocate φ k

/-- Resetting the positions of a tree changes nothing but the place of a fault. -/
theorem runFrom_build_stripPositions (t : Tree) (k : NodeKind) (start : Int) :
    (t.stripPositions.build k).runFrom start =
      Build.withoutPlaces ((t.build k).runFrom start) := by
  rw [stripPositions_eq_relocate, build_relocate, Build.runFrom_relocate, Build.withoutPlaces]

/-- Building does not depend on layout.  A tree whose positions are reset is built as before: the
same node with the same ids, or the same fault but for its place, and as many ids are issued.  A
tree that is read from a text can be printed with any indent and read again under the same options,
and then every kind of node is built from it as from the first tree, but for the place of a
fault. -/
theorem build_layout_independent :
    (∀ (t : Tree) (k : NodeKind) (start : Int),
      (t.stripPositions.build k).runFrom start =
        Build.withoutPlaces ((t.build k).runFrom start)) ∧
    (∀ (options : ReadOptions) (p : PrintOptions) (text : String) (t : Tree),
      ofText options text = .ok t →
        ∃ printed again,
          t.print p = .ok printed ∧ ofText options printed = .ok again ∧
          ∀ (k : NodeKind) (start : Int),
            Build.withoutPlaces ((again.build k).runFrom start) =
              Build.withoutPlaces ((t.build k).runFrom start)) := by
  refine ⟨runFrom_build_stripPositions, ?_⟩
  intro options p text t ht
  have hlexable : t.Lexable := lexable_of_ofText ht
  obtain ⟨again, hagain, -, hstrip⟩ := ofText_render p hlexable (nesting_le_of_ofText ht)
  refine ⟨t.render p, again, hlexable.print_eq p, hagain, ?_⟩
  intro k start
  rw [← runFrom_build_stripPositions, hstrip, runFrom_build_stripPositions]

/-- A span that runs backwards, written on two lines.  Printed without an indent and read again, it
is found to run backwards as before. -/
theorem build_layout_independent_span :
    let text := "(Span :lo 2\n  :hi 1)"
    let t := list
      [leaf (.symbol "Span") ⟨1, 1, 2⟩, leaf (.keyword "lo") ⟨6, 1, 7⟩,
        leaf (.number "2") ⟨10, 1, 11⟩, leaf (.keyword "hi") ⟨14, 2, 3⟩,
        leaf (.number "1") ⟨18, 2, 7⟩] ⟨0, 1, 1⟩
    ofText {} text = .ok t ∧
      ∃ printed again, t.print ⟨0⟩ = .ok printed ∧ ofText {} printed = .ok again ∧
        Build.withoutPlaces ((again.build .span).runFrom 7) =
          (.error (.expected "span with lo <= hi" "lo 2, hi 1" .start), 7) := by
  intro text t
  have htext : ofText {} text = .ok t := by decide +kernel
  obtain ⟨printed, again, hprint, hagain, hbuild⟩ :=
    build_layout_independent.2 {} ⟨0⟩ text t htext
  refine ⟨htext, printed, again, hprint, hagain, ?_⟩
  rw [hbuild .span 7]
  rfl

end Tree

end CrateNotation
