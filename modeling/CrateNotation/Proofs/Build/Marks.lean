import CrateNotation.Proofs.Build.Success
import CrateNotation.Proofs.Crate.Forest
import CrateNotation.Text.Numeral
import CrateNotation.Tree
import Mathlib.Tactic.Common

/-!
# Marks

A numbered node has an id, and in the list that it was written as an id may be written or not.  A
*mark* holds both.  A forest of marks is two forests at the same time: the ids that the nodes of a
crate have, and what is written for them in a tree.

Along a row of marks a session issues an id for each that has none written, and no others.  What
this says about the ids is proved here from `Issued` alone, and has nothing to do with trees.

## Main Definitions

* `Mark` — the id of a node, with the tree that is written for it
* `Issued` — ids are written or come from the session in order
* `Build.Numbers` — a computation that issues ids in the order of completion

## Main Statements

* `Issued.automatic_eq` — ids are issued without a gap
* `Issued.lt_of_mem_nodes` — and a node has a greater one than the nodes inside it
-/

namespace CrateNotation

open Text (Numeral)

/-! ## Marks -/

/-- The id of a node, and the tree that is written for it in the list of the node, if one is. -/
structure Mark where
  id : NodeId
  written : Option Tree

/-- Whether no id is written for a node. -/
def Mark.isAutomatic (m : Mark) : Bool :=
  m.written.isNone

/-- A tree is a number and stands for an integer. -/
def Tree.StandsFor (t : Tree) (value : Int) : Prop :=
  ∃ text pos numeral, t = leaf (.number text) pos ∧
    Numeral.ofText? text.toList = some numeral ∧ numeral.value = value

/-- `Issued start marks stop` says that a session that has issued `start` ids has issued `stop` of
them after it has gone along the marks and issued an id for each that has none written. -/
inductive Issued : Int → List Mark → Int → Prop where
  | nil {start : Int} : Issued start [] start
  | automatic {start stop : Int} {marks : List Mark} (more : Issued (start + 1) marks stop) :
    Issued start (⟨⟨start⟩, none⟩ :: marks) stop
  | written {start stop : Int} {id : NodeId} {t : Tree} {marks : List Mark}
    (stands : t.StandsFor id.value) (more : Issued start marks stop) :
    Issued start (⟨id, some t⟩ :: marks) stop

namespace Issued

variable {start mid stop : Int} {marks more : List Mark}

theorem append (h : Issued start marks mid) (hmore : Issued mid more stop) :
    Issued start (marks ++ more) stop := by
  induction h with
  | nil => exact hmore
  | automatic _ ih => exact .automatic (ih hmore)
  | written stands _ ih => exact .written stands (ih hmore)

theorem of_append (h : Issued start (marks ++ more) stop) :
    ∃ mid, Issued start marks mid ∧ Issued mid more stop := by
  induction marks generalizing start with
  | nil => exact ⟨start, .nil, h⟩
  | cons m marks ih =>
    cases h with
    | automatic hmore =>
      obtain ⟨mid, hmarks, hrest⟩ := ih hmore
      exact ⟨mid, .automatic hmarks, hrest⟩
    | written stands hmore =>
      obtain ⟨mid, hmarks, hrest⟩ := ih hmore
      exact ⟨mid, .written stands hmarks, hrest⟩

/-- An id that is written is what the tree stands for. -/
theorem standsFor_of_mem (h : Issued start marks stop) :
    ∀ m ∈ marks, ∀ t ∈ m.written, t.StandsFor m.id.value := by
  induction h with
  | nil => simp
  | automatic _ ih => exact List.forall_mem_cons.2 ⟨by simp, ih⟩
  | written stands _ ih =>
    refine List.forall_mem_cons.2 ⟨?_, ih⟩
    intro t ht
    obtain rfl := Option.some.inj ht
    exact stands

theorem start_le_stop (h : Issued start marks stop) : start ≤ stop := by
  induction h with
  | nil => exact Int.le_refl _
  | automatic _ ih => omega
  | written _ _ ih => exact ih

/-- The ids that are not written are issued without a gap. -/
theorem automatic_eq (h : Issued start marks stop) :
    ∃ n : Nat, stop = start + n ∧
      (marks.filter Mark.isAutomatic).map Mark.id =
        (List.range n).map fun i : Nat => ⟨start + i⟩ := by
  induction h with
  | nil => exact ⟨0, by omega, rfl⟩
  | @automatic start stop marks _ ih =>
    obtain ⟨n, hstop, hids⟩ := ih
    refine ⟨n + 1, by omega, ?_⟩
    have hshift : (fun i : Nat => (⟨start + 1 + i⟩ : NodeId)) =
        (fun i : Nat => ⟨start + i⟩) ∘ Nat.succ := by
      funext i
      rw [Function.comp_apply, NodeId.mk.injEq]
      omega
    rw [List.range_succ_eq_map, List.map_cons, List.map_map, List.filter_cons_of_pos rfl,
      List.map_cons, hids, hshift]
    simp
  | written _ _ ih => exact ih

/-- An id that is not written is one of those that the session issues. -/
theorem mem_bounds (h : Issued start marks stop) :
    ∀ m ∈ marks, m.isAutomatic = true → start ≤ m.id.value ∧ m.id.value < stop := by
  induction h with
  | nil => simp
  | automatic hmore ih =>
    have hle := hmore.start_le_stop
    refine List.forall_mem_cons.2 ⟨?_, ?_⟩
    · intro _
      exact ⟨Int.le_refl _, Int.lt_of_lt_of_le (Int.lt_succ _) hle⟩
    · intro m hm hauto
      obtain ⟨hlow, hhigh⟩ := ih m hm hauto
      omega
  | written _ _ ih =>
    refine List.forall_mem_cons.2 ⟨?_, ih⟩
    intro hauto
    cases hauto

/-- Where ids are issued in the order of completion, a node has a greater id than the nodes inside
it. -/
theorem lt_of_mem_nodes {forest : Forest Mark} (h : Issued start forest.labels stop) :
    ∀ p ∈ forest.nodes, p.2.isAutomatic = true →
      ∀ m ∈ p.1.labels, m.isAutomatic = true → m.id.value < p.2.id.value := by
  -- A label stands right behind the labels of its children, so what has been issued for these is
  -- less than what is issued for it.
  induction forest generalizing start stop with
  | nil => simp [Forest.nodes]
  | cons children label others ihc iho =>
    obtain ⟨mid, hchildren, hrest⟩ := of_append h
    intro p hp
    rcases List.mem_append.1 hp with hp | hp
    · exact ihc hchildren p hp
    · cases hrest with
      | automatic hothers =>
        rcases List.mem_cons.1 hp with rfl | hp
        · intro _ m hm hauto
          exact (hchildren.mem_bounds m hm hauto).2
        · exact iho hothers p hp
      | written stands hothers =>
        rcases List.mem_cons.1 hp with rfl | hp
        · intro hauto
          cases hauto
        · exact iho hothers p hp

end Issued

/-! ## Computations that number nodes -/

/-- A successful computation numbers the nodes that `outline` finds in its result, and `source` is
what is written for them. -/
def Build.Numbers {α : Type} (x : Build α) (outline : α → Forest NodeId)
    (source : Forest (Option Tree)) : Prop :=
  ∀ start a stop, x.runFrom start = (.ok a, stop) →
    ∃ marks : Forest Mark, marks.map Mark.id = outline a ∧ marks.map Mark.written = source ∧
      Issued start marks.labels stop

namespace Build

variable {α β : Type}

/-- A computation that takes no ids numbers nothing. -/
theorem numbers_ofExcept {x : Except Fault α} {outline : α → Forest NodeId}
    (h : ∀ a, x = .ok a → outline a = .nil) : (ofExcept x).Numbers outline .nil := by
  intro start a stop hrun
  obtain ⟨hx, rfl⟩ := runFrom_ofExcept_eq_ok_iff.1 hrun
  exact ⟨.nil, (h a hx).symm, rfl, .nil⟩

theorem numbers_pure {a : α} {outline : α → Forest NodeId} (h : outline a = .nil) :
    (pure a : Build α).Numbers outline .nil := by
  intro start b stop hrun
  obtain ⟨rfl, rfl⟩ := runFrom_pure_eq_ok_iff.1 hrun
  exact ⟨.nil, h.symm, rfl, .nil⟩

theorem Numbers.map {x : Build α} {f : α → β} {outline : β → Forest NodeId}
    {source : Forest (Option Tree)} (h : x.Numbers (outline ∘ f) source) :
    (f <$> x).Numbers outline source := by
  intro start b stop hrun
  obtain ⟨a, hx, rfl⟩ := runFrom_map_eq_ok_iff.1 hrun
  exact h start a stop hx

/-- What stands before a computation and takes no ids changes nothing. -/
theorem numbers_ofExcept_bind {x : Except Fault α} {f : α → Build β}
    {outline : β → Forest NodeId} {source : Forest (Option Tree)}
    (h : ∀ a, x = .ok a → (f a).Numbers outline source) :
    (ofExcept x >>= f).Numbers outline source := by
  intro start b stop hrun
  obtain ⟨a, mid, hx, hf⟩ := runFrom_bind_eq_ok_iff.1 hrun
  obtain ⟨hok, rfl⟩ := runFrom_ofExcept_eq_ok_iff.1 hx
  exact h a hok start b stop hf

/-- The nodes of a row are numbered one after the other. -/
theorem numbers_mapM {γ : Type} {f : γ → Build α} {outline : α → Forest NodeId}
    {source : γ → Forest (Option Tree)} {cs : List γ}
    (h : ∀ c ∈ cs, (f c).Numbers outline (source c)) :
    (cs.mapM f).Numbers (Forest.flatMap outline) (Forest.flatMap source cs) := by
  induction cs with
  | nil =>
    rw [List.mapM_nil]
    exact numbers_pure rfl
  | cons c cs ih =>
    obtain ⟨hc, hcs⟩ := List.forall_mem_cons.1 h
    intro start as stop hrun
    rw [List.mapM_cons] at hrun
    obtain ⟨a, mid, ha, hrun⟩ := runFrom_bind_eq_ok_iff.1 hrun
    obtain ⟨more, mid', hmore, hpure⟩ := runFrom_bind_eq_ok_iff.1 hrun
    obtain ⟨rfl, rfl⟩ := runFrom_pure_eq_ok_iff.1 hpure
    obtain ⟨marks, hids, hwritten, hissued⟩ := hc start a mid ha
    obtain ⟨marks', hids', hwritten', hissued'⟩ := ih hcs mid more mid' hmore
    refine ⟨marks ++ marks', ?_, ?_, ?_⟩
    · rw [Forest.map_append, hids, hids', Forest.flatMap_cons]
    · rw [Forest.map_append, hwritten, hwritten', Forest.flatMap_cons]
    · rw [Forest.labels_append]
      exact hissued.append hissued'

end Build

end CrateNotation
