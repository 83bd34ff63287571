import CrateNotation.Proofs.Build.Numbering
import CrateNotation.Proofs.Build.Script
import CrateNotation.Proofs.Schema.Renumbered

/-!
# Sessions that start later

A build asks for ids and puts them into nodes, and does not look at them.  So it does the same in a
session that has issued ids before, and the ids that it is handed out there are those of a fresh
session, moved on.  Only if there are not enough ids left does it come to something else: it fails
when they are used up.

Two computations are *alike* if they ask for ids at the same time, whatever ids they are handed out,
and come to the same in the end except for these.  The rules of building make computations alike from
a field up to a shape, and what two alike computations do in two sessions is an induction on how they
are alike.  Which ids a node has then is known from the order in which they are issued.

## Main Definitions

* `Build.Alike` — computations that differ in ids only
* `Tree.moveIds` — a node with all ids moved that its tree has not written

## Main Statements

* `Build.Alike.runFrom_later` — alike computations in two sessions
* `Tree.alike_build` — a build does not look at ids
* `Tree.build_from_later_start` — a build in a session that starts later
-/

namespace CrateNotation

/-- `x.Alike look y` says that `x` and `y` ask for ids at the same time, whatever ids they are handed
out, and come to the same fault or to results that `look` does not tell apart. -/
inductive Build.Alike {α β : Type} (look : α → β) : Build α → Build α → Prop where
  | done {outcome other : Except Fault α} (h : outcome.map look = other.map look) :
    Alike look (ofExcept outcome) (ofExcept other)
  | ask {next other : NodeId → Build α} (h : ∀ id id', Alike look (next id) (other id')) :
    Alike look (nextId >>= next) (nextId >>= other)

namespace Build

/-! ## Alike computations in two sessions -/

section Runs

variable {α β : Type} {look : α → β} {x y : Build α}

/-- Ids are handed out in rising order. -/
theorem Alike.le_runFrom (h : x.Alike look y) (start : Int) : start ≤ (x.runFrom start).2 := by
  induction h generalizing start with
  | done _ => exact Int.le_refl start
  | @ask next other _ ih =>
    by_cases hlt : start < maxIndex
    · rw [runFrom_nextId_bind_of_lt hlt]
      exact Int.le_of_lt (Int.lt_of_lt_of_le (Int.lt_succ start) (ih ⟨start⟩ ⟨start⟩ (start + 1)))
    · have hrefused := runFrom_nextId_bind_of_not_lt hlt next
      exact Int.le_of_eq (congrArg Prod.snd hrefused).symm

/-- Of two alike computations, one in a session that has issued `d` ids more than that of the other,
both come to the same if there are enough ids for the later one.  Otherwise the later one fails with
no ids left. -/
theorem Alike.runFrom_later (h : x.Alike look y) {start d : Int} (hd : 0 ≤ d)
    (hstart : start + d ≤ maxIndex) :
    ((x.runFrom start).2 + d ≤ maxIndex →
      (y.runFrom (start + d)).2 = (x.runFrom start).2 + d ∧
        (y.runFrom (start + d)).1.map look = (x.runFrom start).1.map look) ∧
    (maxIndex < (x.runFrom start).2 + d →
      y.runFrom (start + d) = (.error .idsExhausted, maxIndex)) := by
  induction h generalizing start with
  | done hlook =>
    constructor
    · intro _
      exact ⟨rfl, hlook.symm⟩
    · intro hlt
      exact absurd hstart (Int.not_le.2 hlt)
  | @ask next other hnext ih =>
    by_cases hlater : start + d < maxIndex
    · -- Both are handed out an id, and are one id further then.
      have hlt : start < maxIndex := by omega
      have hstep : start + d + 1 = start + 1 + d := by omega
      rw [runFrom_nextId_bind_of_lt hlt, runFrom_nextId_bind_of_lt hlater, hstep]
      exact ih ⟨start⟩ ⟨start + d⟩ (by omega)
    · have hmax : start + d = maxIndex := by omega
      rw [runFrom_nextId_bind_of_not_lt hlater]
      by_cases hlt : start < maxIndex
      · -- There is an id left for the earlier one only.
        rw [runFrom_nextId_bind_of_lt hlt]
        have hle : start + 1 ≤ ((next ⟨start⟩).runFrom (start + 1)).2 :=
          (hnext ⟨start⟩ ⟨start⟩).le_runFrom (start + 1)
        constructor
        · intro henough
          omega
        · intro _
          rw [hmax]
      · rw [runFrom_nextId_bind_of_not_lt hlt]
        constructor
        · intro _
          exact ⟨rfl, rfl⟩
        · intro hlt
          exact absurd hstart (Int.not_le.2 hlt)

end Runs

/-! ## Putting alike computations together -/

section Rules

variable {α β γ δ : Type} {look : α → β} {look' : γ → δ}

theorem alike_ofExcept (outcome : Except Fault α) :
    (ofExcept outcome).Alike look (ofExcept outcome) :=
  .done rfl

theorem alike_pure {a b : α} (h : look a = look b) : (pure a : Build α).Alike look (pure b) :=
  .done (congrArg Except.ok h)

/-- The next id is handed out alike if ids are not looked at. -/
theorem alike_nextId {look : NodeId → β} (h : ∀ id id', look id = look id') :
    nextId.Alike look nextId := by
  rw [← bind_pure nextId]
  exact .ask fun id id' => alike_pure (h id id')

theorem Alike.bind {x y : Build α} {f g : α → Build γ} (h : x.Alike look y)
    (hfg : ∀ a b, look a = look b → (f a).Alike look' (g b)) :
    (x >>= f).Alike look' (y >>= g) := by
  induction h with
  | @done outcome other hlook =>
    cases outcome with
    | error e =>
      cases other with
      | error e' =>
        obtain rfl := Except.error.inj hlook
        exact alike_ofExcept (.error e)
      | ok b => cases hlook
    | ok a =>
      cases other with
      | error e => cases hlook
      | ok b => exact hfg a b (Except.ok.inj hlook)
  | ask _ ih =>
    rw [bind_assoc, bind_assoc]
    exact .ask ih

/-- What follows a check may rely on what it found. -/
theorem alike_ofExcept_bind {outcome : Except Fault α} {f : α → Build γ}
    (h : ∀ a, outcome = .ok a → (f a).Alike look' (f a)) :
    (ofExcept outcome >>= f).Alike look' (ofExcept outcome >>= f) := by
  cases outcome with
  | error e => exact alike_ofExcept (.error e)
  | ok a => exact h a rfl

theorem Alike.map {x y : Build α} {f : α → γ} (h : x.Alike look y)
    (hf : ∀ a b, look a = look b → look' (f a) = look' (f b)) :
    (f <$> x).Alike look' (f <$> y) := by
  rw [map_eq_pure_bind, map_eq_pure_bind]
  exact h.bind fun a b hab => alike_pure (hf a b hab)

theorem alike_map_ofExcept (f : α → γ) (outcome : Except Fault α) :
    (f <$> ofExcept outcome).Alike look' (f <$> ofExcept outcome) := by
  cases outcome with
  | error e => exact alike_ofExcept (.error e)
  | ok a => exact alike_ofExcept (.ok (f a))

/-- The nodes of a row are walked through one after the other. -/
theorem alike_mapM {f : γ → Build α} {renumber : α → Renumber α} {cs : List γ}
    (h : ∀ c ∈ cs, (f c).Alike renumber (f c)) :
    (cs.mapM f).Alike (List.mapM renumber) (cs.mapM f) := by
  induction cs with
  | nil =>
    rw [List.mapM_nil]
    exact alike_pure rfl
  | cons c cs ih =>
    obtain ⟨hc, hcs⟩ := List.forall_mem_cons.1 h
    rw [List.mapM_cons]
    refine hc.bind fun a b hab => (ih hcs).bind fun as bs hmore => alike_pure ?_
    rw [List.mapM_cons, List.mapM_cons, hab, hmore]

end Rules

end Build

open Build

/-! ## The rules of building -/

/-- No build from an element of a list looks at ids. -/
def Part.Alike (p : Part) : Prop :=
  ∀ k, (p.build k).Alike k.renumber (p.build k)

theorem Content.alike_read (c : Content) {p : Part} (hp : p.Alike) :
    (c.read p).Alike c.renumber (c.read p) := by
  induction c with
  | node k => exact hp k
  | orNil c ih =>
    rw [read]
    split
    · exact alike_pure rfl
    · exact ih.map fun _ _ h => congrArg (some <$> ·) h
  | text | flag | word v | integer range | nothing what => exact alike_ofExcept _

section Values

variable {pos : Position} {fields : Fields Part}

theorem Field.alike_read (hfields : ∀ name, ∀ p ∈ fields.get? name, p.Alike) (f : Field) :
    (f.read pos fields).Alike f.renumber (f.read pos fields) := by
  cases f with
  | required name content =>
    rw [read]
    apply alike_ofExcept_bind
    intro p hp
    exact content.alike_read (hfields name p (get?_of_require hp))
  | optional name content absent =>
    rw [read]
    split
    next p hp => exact content.alike_read (hfields name p hp)
    next => exact alike_pure rfl
  | id =>
    rw [read]
    split
    next p hp => exact alike_map_ofExcept NodeId.mk _
    next => exact alike_nextId fun _ _ => rfl

theorem Values.alike_read (hfields : ∀ name, ∀ p ∈ fields.get? name, p.Alike) (fs : List Field) :
    (Values.read pos fields fs).Alike (Values.renumber fs) (Values.read pos fields fs) := by
  induction fs with
  | nil => exact alike_pure rfl
  | cons f fs ih =>
    rw [read]
    refine (Field.alike_read hfields f).bind fun value other hvalue => ?_
    refine ih.bind fun values others hvalues => alike_pure ?_
    rw [renumber, renumber, hvalue, hvalues]

end Values

section Forms

variable {α : Type} {renumber : α → Renumber α} {parts : List Part}

theorem Form.alike_readFields {form : Form α} (hform : form.Renumbered renumber)
    (hparts : ∀ p ∈ parts, p.Alike) (pos : Position) :
    (form.readFields pos parts).Alike renumber (form.readFields pos parts) := by
  unfold readFields
  apply alike_ofExcept_bind
  intro fields hfields
  have hget : ∀ name, ∀ p ∈ fields.get? name, p.Alike :=
    fun name p hp => hparts p (mem_of_get?_fieldsOf hfields hp)
  refine (Values.alike_read hget form.fields).bind fun values others hvalues => ?_
  -- The same values are refused, and what is made of the others differs in ids only.
  rw [hform.refuse values others hvalues]
  split
  · exact alike_ofExcept _
  · apply alike_pure
    rw [hform.make, hform.make, hvalues]

theorem Form.alike_read {form : Form α} (hform : form.Renumbered renumber)
    (hparts : ∀ p ∈ parts, p.Alike) (pos : Position) :
    (form.read pos parts).Alike renumber (form.read pos parts) := by
  cases hblank : form.blank with
  | none =>
    rw [read_eq_readFields (.inr hblank)]
    exact alike_readFields hform hparts pos
  | some a =>
    cases parts with
    | nil =>
      rw [read_of_blank hblank]
      exact alike_pure rfl
    | cons p parts =>
      rw [read_eq_readFields (.inl (List.cons_ne_nil p parts))]
      exact alike_readFields hform hparts pos

theorem Shape.alike_read {shape : Shape α} (hshape : shape.Renumbered renumber)
    (hparts : ∀ p ∈ parts, p.Alike) (t : Tree) :
    (shape.read t parts).Alike renumber (shape.read t parts) := by
  cases shape with
  | form f =>
    apply alike_ofExcept_bind
    intro found _
    exact Form.alike_read hshape hparts found.2
  | union table =>
    apply alike_ofExcept_bind
    intro found _
    apply alike_ofExcept_bind
    intro f hf
    obtain ⟨-, entry, hentry, rfl⟩ := TagTable.select_eq_ok hf
    exact Form.alike_read (hshape entry hentry) hparts found.2
  | row k make =>
    apply alike_ofExcept_bind
    intro found _
    have hrow : (parts.mapM fun p : Part => p.build k).Alike (List.mapM k.renumber)
        (parts.mapM fun p : Part => p.build k) := alike_mapM fun p hp => hparts p hp k
    refine hrow.bind fun nodes others hnodes => alike_pure ?_
    rw [hshape, hshape, hnodes]
  | word v make => exact alike_map_ofExcept make _

end Forms

namespace Tree

/-- A build does not look at ids. -/
theorem alike_build (t : Tree) (k : NodeKind) : (t.build k).Alike k.renumber (t.build k) := by
  induction t generalizing k with
  | leaf l pos => exact Shape.alike_read k.renumbered_shape (List.forall_mem_nil _) (leaf l pos)
  | list elements pos ih =>
    rw [build_list]
    apply Shape.alike_read k.renumbered_shape
    intro p hp
    obtain ⟨t, ht, rfl⟩ := List.mem_map.1 hp
    exact ih t ht
  | hole => exact Shape.alike_read k.renumbered_shape (List.forall_mem_nil _) hole

end Tree

/-! ## Moved ids -/

/-- The id of a node, moved by `d` if none is written for it. -/
def NodeId.move (d : Int) (id : NodeId) : Option Tree → NodeId
  | none => ⟨id.value + d⟩
  | some _ => id

/-- A tree stands for one integer only. -/
theorem Tree.StandsFor.eq {t : Tree} {m n : Int} (hm : t.StandsFor m) (hn : t.StandsFor n) :
    m = n := by
  obtain ⟨text, pos, numeral, rfl, hnumeral, rfl⟩ := hm
  obtain ⟨text', pos', numeral', ht, hnumeral', rfl⟩ := hn
  obtain ⟨hleaf, -⟩ := Tree.leaf.inj ht
  obtain rfl := Leaf.number.inj hleaf
  rw [Option.some.inj (hnumeral.symm.trans hnumeral')]

/-- Along rows of marks with the same written ids, a session that starts later issues ids that are
moved. -/
theorem Issued.map_id_later {start stop stop' d : Int} {marks others : List Mark}
    (h : Issued start marks stop) (hlater : Issued (start + d) others stop')
    (hwritten : others.map Mark.written = marks.map Mark.written) :
    others.map Mark.id =
      (marks.map Mark.id).zipWith (NodeId.move d) (marks.map Mark.written) := by
  induction h generalizing others with
  | nil =>
    rw [List.map_eq_nil_iff.1 hwritten]
    rfl
  | @automatic start stop marks _ ih =>
    cases hlater with
    | nil => cases hwritten
    | @automatic _ _ others hmore =>
      have hstep : start + d + 1 = start + 1 + d := by omega
      rw [hstep] at hmore
      have hids := ih hmore (List.cons.inj hwritten).2
      exact congrArg (_ :: ·) hids
    | written _ _ => cases (List.cons.inj hwritten).1
  | @written start stop id t marks hstands _ ih =>
    cases hlater with
    | nil => cases hwritten
    | automatic _ => cases (List.cons.inj hwritten).1
    | @written _ _ id' t' others hstands' hmore =>
      obtain ⟨htree, hrest⟩ := List.cons.inj hwritten
      obtain rfl := Option.some.inj htree
      have hid : id' = id := congrArg NodeId.mk (hstands'.eq hstands)
      rw [List.map_cons, List.map_cons, List.map_cons, List.zipWith_cons_cons, ih hmore hrest, hid]
      rfl

namespace Tree

/-- A node that a tree is written for, with all ids moved by `d` that the tree has not written. -/
def moveIds (t : Tree) (k : NodeKind) (d : Int) (value : k.Value) : k.Value :=
  ((k.renumber value).run
    ((k.outline value).labels.zipWith (NodeId.move d) (t.outline k).labels)).1

/-- If a build succeeds in two sessions and its nodes differ in ids only, then the ids of the later
session are moved. -/
theorem eq_moveIds {t : Tree} {k : NodeKind} {start stop stop' d : Int} {value later : k.Value}
    (h : (t.build k).runFrom start = (.ok value, stop))
    (hlater : (t.build k).runFrom (start + d) = (.ok later, stop'))
    (hlook : k.renumber later = k.renumber value) : later = t.moveIds k d value := by
  obtain ⟨marks, hids, hwritten, hissued⟩ := numbers_build t k start value stop h
  obtain ⟨marks', hids', hwritten', hissued'⟩ := numbers_build t k (start + d) later stop' hlater
  have hsame : marks'.labels.map Mark.written = marks.labels.map Mark.written := by
    rw [← Forest.labels_map, ← Forest.labels_map, hwritten, hwritten']
  have hlabels : (k.outline later).labels =
      (k.outline value).labels.zipWith (NodeId.move d) (t.outline k).labels := by
    rw [← hids, ← hids', ← hwritten, Forest.labels_map, Forest.labels_map, Forest.labels_map]
    exact hissued.map_id_later hissued' hsame
  -- The walk is the same through both nodes, and makes the later one of its own ids.
  have hown := k.renumbers later []
  rw [List.append_nil, hlabels, hlook] at hown
  rw [moveIds, hown]

/-- A build that is not cut short comes to the same in a session that has issued `d` ids more, with
its ids moved. -/
theorem map_moveIds_eq {t : Tree} {k : NodeKind} {start d : Int}
    (hlook : ((t.build k).runFrom (start + d)).1.map k.renumber =
      ((t.build k).runFrom start).1.map k.renumber) :
    ((t.build k).runFrom (start + d)).1 =
      ((t.build k).runFrom start).1.map (t.moveIds k d) := by
  rcases hrun : (t.build k).runFrom start with ⟨e | value, stop⟩
  · rcases hlater : (t.build k).runFrom (start + d) with ⟨e' | later, stop'⟩
    · rw [hrun, hlater] at hlook
      exact congrArg _ (Except.error.inj hlook)
    · rw [hrun, hlater] at hlook
      cases hlook
  · rcases hlater : (t.build k).runFrom (start + d) with ⟨e' | later, stop'⟩
    · rw [hrun, hlater] at hlook
      cases hlook
    · rw [hrun, hlater] at hlook
      exact congrArg _ (eq_moveIds hrun hlater (Except.ok.inj hlook))

/-- What a build comes to in a fresh session, it comes to in a session that has issued ids before,
with all ids moved that are not written.  It fails if there are not enough ids left, and has used
them up then. -/
theorem build_from_later_start (t : Tree) (k : NodeKind) :
    ∃ n : Nat, ((t.build k).runFrom 0).2 = n ∧
      (∀ start : Int, 0 ≤ start → start + n ≤ maxIndex →
        (t.build k).runFrom start =
          (((t.build k).runFrom 0).1.map (t.moveIds k start), start + n)) ∧
      (∀ start : Int, start ≤ maxIndex → maxIndex < start + n →
        (t.build k).runFrom start = (.error .idsExhausted, maxIndex)) := by
  obtain ⟨s, hs⟩ := t.isScripted_build k
  have hzero : (0 : Int) ≤ maxIndex := by decide
  obtain ⟨n, hn, -, hle⟩ := s.exists_handedOut hzero
  rw [hs, Int.zero_add] at hn
  rw [Int.zero_add] at hle
  refine ⟨n, hn, ?_, ?_⟩
  · intro start hstart henough
    have hlater : 0 + start ≤ maxIndex := by omega
    obtain ⟨hrun, -⟩ := (t.alike_build k).runFrom_later hstart hlater
    rw [hn, Int.add_comm (n : Int)] at hrun
    obtain ⟨hstop, hlook⟩ := hrun henough
    have hresult := map_moveIds_eq hlook
    rw [Int.zero_add] at hstop hresult
    rw [← hstop, ← hresult]
  · intro start hstart hmore
    have hafter : 0 ≤ start := by omega
    have hlater : 0 + start ≤ maxIndex := by omega
    obtain ⟨-, hexhausted⟩ := (t.alike_build k).runFrom_later hafter hlater
    rw [hn, Int.zero_add, Int.add_comm (n : Int)] at hexhausted
    exact hexhausted hmore

/-- A block with two statements, where an id is written for the first.  In a session that has issued
five ids the second statement and the block have other ids, and in a session with one id left there
is none for the block. -/
theorem build_from_later_start_block :
    let symbol := fun text => leaf (.symbol text) .start
    let keyword := fun name => leaf (.keyword name) .start
    let empty := list [symbol "Empty"] .start
    let first := list [symbol "Stmt", keyword "id", leaf (.number "9") .start, keyword "kind",
      empty] .start
    let second := list [symbol "Stmt", keyword "kind", empty] .start
    let t := list [symbol "Block", keyword "stmts", list [first, second] .start] .start
    let fresh : Block := { stmts := [⟨⟨9⟩, .empty, .dummy⟩, ⟨⟨0⟩, .empty, .dummy⟩], id := ⟨1⟩ }
    let later : Block := { stmts := [⟨⟨9⟩, .empty, .dummy⟩, ⟨⟨5⟩, .empty, .dummy⟩], id := ⟨6⟩ }
    (t.build .block).runFrom 0 = (.ok fresh, 2) ∧ (5 + 2 : Int) ≤ maxIndex ∧
      t.moveIds .block 5 fresh = later ∧ (t.build .block).runFrom 5 = (.ok later, 7) ∧
      (t.build .block).runFrom (maxIndex - 1) = (.error .idsExhausted, maxIndex) := by
  intro symbol keyword empty first second t fresh later
  have hfresh : (t.build .block).runFrom 0 = (.ok fresh, 2) := by rfl
  have hmoved : t.moveIds .block 5 fresh = later := by rfl
  obtain ⟨n, hn, hlater, hexhausted⟩ := build_from_later_start t .block
  rw [hfresh] at hn hlater
  obtain rfl : n = 2 := by omega
  have henough : (5 + 2 : Int) ≤ maxIndex := by decide
  refine ⟨hfresh, henough, hmoved, ?_, ?_⟩
  · rw [hlater 5 (by decide) henough, Except.map, hmoved]
    rfl
  · exact hexhausted (maxIndex - 1) (by decide) (by decide)

end Tree

end CrateNotation
