import CrateNotation.Proofs.Build.Outcome
import CrateNotation.Proofs.Build.Reading
import CrateNotation.Proofs.Build.Source
import Mathlib.Data.List.Nodup

/-!
# Builds as scripts

A build does one thing with its session: it asks for the next id.  What it asks for next may depend
on the ids that it was given before, and where it fails it asks for no more.  A *script* is such a
computation spelled out, so that the ids handed out to it can be listed, whatever becomes of it.

That every build follows a script is shown along the rules of building, from a field up to a shape.
It is all that is needed to know of a session that serves many builds.

## Main Definitions

* `Script` — a computation that asks for ids one after the other
* `Script.handedOut` — the ids that a session hands out to a script
* `Build.IsScripted` — a computation that follows a script

## Main Statements

* `Script.exists_handedOut` — ids are handed out without a gap, and are counted
* `Tree.isScripted_build` — every build follows a script
-/

namespace CrateNotation

/-- A computation that asks for ids one after the other, and does nothing else. -/
inductive Script (α : Type) where
  /-- No further id is asked for. -/
  | done (outcome : Except Fault α)
  /-- The next id is asked for. -/
  | ask (next : NodeId → Script α)

namespace Script

variable {α β : Type}

/-- A script as it is followed in a session. A request that is refused ends it. -/
def toBuild : Script α → Build α
  | done outcome => .ofExcept outcome
  | ask next => Build.nextId >>= fun id => (next id).toBuild

/-- The ids that are handed out to a script by a session that has issued so many ids, in the order
in which they are handed out. -/
def handedOut : Script α → Int → List NodeId
  | done _, _ => []
  | ask next, issued =>
    match Build.nextId.runFrom issued with
    | (.ok id, issued) => id :: (next id).handedOut issued
    | (.error _, _) => []

/-- What a script comes to that is not given any id: the first request for one ends it. -/
def unserved : Script α → Except Fault α
  | done outcome => outcome
  | ask _ => .error .idsExhausted

/-- One script, and then another that depends on what the first one comes to. -/
def bind : Script α → (α → Script β) → Script β
  | done (.ok a), f => f a
  | done (.error e), _ => done (.error e)
  | ask next, f => ask fun id => (next id).bind f

theorem toBuild_bind (s : Script α) (f : α → Script β) :
    (s.bind f).toBuild = s.toBuild >>= fun a => (f a).toBuild := by
  induction s with
  | done outcome => cases outcome <;> rfl
  | ask next ih =>
    rw [bind, toBuild, toBuild, bind_assoc]
    congr 1
    funext id
    exact ih id

/-! ## The ids of a script -/

section HandedOut

variable {issued : Int} {next : NodeId → Script α}

/-- A request is granted as long as an id is left. -/
theorem runFrom_ask_of_lt (h : issued < maxIndex) :
    (ask next).toBuild.runFrom issued = (next ⟨issued⟩).toBuild.runFrom (issued + 1) :=
  Build.runFrom_nextId_bind_of_lt h fun id => (next id).toBuild

/-- After that it is refused, and the session stays as it is. -/
theorem runFrom_ask_of_not_lt (h : ¬ issued < maxIndex) :
    (ask next).toBuild.runFrom issued = (.error .idsExhausted, issued) :=
  Build.runFrom_nextId_bind_of_not_lt h fun id => (next id).toBuild

theorem handedOut_ask_of_lt (h : issued < maxIndex) :
    (ask next).handedOut issued = ⟨issued⟩ :: (next ⟨issued⟩).handedOut (issued + 1) := by
  rw [handedOut, Build.runFrom_nextId, if_pos h]

theorem handedOut_ask_of_not_lt (h : ¬ issued < maxIndex) :
    (ask next).handedOut issued = [] := by
  rw [handedOut, Build.runFrom_nextId, if_neg h]

end HandedOut

/-- A session that has no ids left gives none to a script, and stays as it is. -/
theorem runFrom_of_maxIndex_le (s : Script α) {issued : Int} (h : maxIndex ≤ issued) :
    s.toBuild.runFrom issued = (s.unserved, issued) := by
  cases s with
  | done outcome => rfl
  | ask next => exact runFrom_ask_of_not_lt (Int.not_lt.2 h)

end Script

/-- The ids from `start` on, `n` of them. -/
def NodeId.row (start : Int) (n : Nat) : List NodeId :=
  (List.range n).map fun i : Nat => ⟨start + i⟩

namespace NodeId

@[simp]
theorem length_row (start : Int) (n : Nat) : (row start n).length = n := by
  rw [row, List.length_map, List.length_range]

theorem row_add (start : Int) (m n : Nat) : row start (m + n) = row start m ++ row (start + m) n := by
  rw [row, List.range_add, List.map_append, List.map_map, row, row]
  congr 1
  apply List.map_congr_left
  intro i _
  simp [Int.add_assoc]

theorem row_succ (start : Int) (n : Nat) : row start (n + 1) = ⟨start⟩ :: row (start + 1) n := by
  rw [Nat.add_comm, row_add]
  simp [row]

theorem mem_row_iff {start : Int} {n : Nat} {id : NodeId} :
    id ∈ row start n ↔ start ≤ id.value ∧ id.value < start + n := by
  rw [row, List.mem_map]
  constructor
  · rintro ⟨i, hi, rfl⟩
    have hlt := List.mem_range.1 hi
    constructor
    · exact Int.le_add_of_nonneg_right (Int.natCast_nonneg i)
    · exact Int.add_lt_add_left (Int.ofNat_lt.2 hlt) start
  · rintro ⟨hlow, hhigh⟩
    have hoffset : ((id.value - start).toNat : Int) = id.value - start :=
      Int.toNat_of_nonneg (Int.sub_nonneg_of_le hlow)
    refine ⟨(id.value - start).toNat, List.mem_range.2 (by omega), ?_⟩
    rw [hoffset, Int.add_comm, Int.sub_add_cancel]

theorem nodup_row (start : Int) (n : Nat) : (row start n).Nodup := by
  apply List.Nodup.map
  · intro i j h
    exact Int.ofNat_inj.1 (Int.add_left_cancel (NodeId.mk.inj h))
  · exact List.nodup_range

end NodeId

/-- Ids are handed out without a gap, each less than the dummy.  The session counts them, however
the script ends. -/
theorem Script.exists_handedOut {α : Type} (s : Script α) {start : Int} (hstart : start ≤ maxIndex) :
    ∃ n : Nat, (s.toBuild.runFrom start).2 = start + n ∧ s.handedOut start = NodeId.row start n ∧
      start + n ≤ maxIndex := by
  induction s generalizing start with
  | done outcome =>
    refine ⟨0, ?_, rfl, ?_⟩
    · exact (Int.add_zero start).symm
    · exact Int.le_trans (Int.le_of_eq (Int.add_zero start)) hstart
  | ask next ih =>
    by_cases hlt : start < maxIndex
    · obtain ⟨n, hstop, hids, hle⟩ := ih ⟨start⟩ (Int.add_one_le_iff.2 hlt)
      refine ⟨n + 1, ?_, ?_, ?_⟩
      · rw [runFrom_ask_of_lt hlt, hstop]
        omega
      · rw [handedOut_ask_of_lt hlt, hids, NodeId.row_succ]
      · omega
    · refine ⟨0, ?_, ?_, ?_⟩
      · rw [runFrom_ask_of_not_lt hlt]
        exact (Int.add_zero start).symm
      · exact handedOut_ask_of_not_lt hlt
      · exact Int.le_trans (Int.le_of_eq (Int.add_zero start)) hstart

/-! ## Computations that follow a script -/

namespace Build

variable {α β : Type}

/-- A computation that does nothing with its session but ask for ids. -/
def IsScripted (x : Build α) : Prop :=
  ∃ s : Script α, s.toBuild = x

theorem isScripted_ofExcept (x : Except Fault α) : (ofExcept x).IsScripted :=
  ⟨.done x, rfl⟩

theorem isScripted_pure (a : α) : (pure a : Build α).IsScripted :=
  isScripted_ofExcept (.ok a)

theorem isScripted_throw (e : Fault) : (throw e : Build α).IsScripted :=
  isScripted_ofExcept (.error e)

theorem isScripted_nextId : nextId.IsScripted :=
  ⟨.ask fun id => .done (.ok id), bind_pure nextId⟩

theorem IsScripted.bind {x : Build α} {f : α → Build β} (hx : x.IsScripted)
    (hf : ∀ a, (f a).IsScripted) : (x >>= f).IsScripted := by
  obtain ⟨s, rfl⟩ := hx
  choose next hnext using hf
  refine ⟨s.bind next, ?_⟩
  rw [Script.toBuild_bind]
  congr 1
  funext a
  exact hnext a

/-- What follows a check may rely on what it found. -/
theorem isScripted_ofExcept_bind {x : Except Fault α} {f : α → Build β}
    (hf : ∀ a, x = .ok a → (f a).IsScripted) : (ofExcept x >>= f).IsScripted := by
  cases x with
  | error e => exact isScripted_throw e
  | ok a => exact hf a rfl

theorem IsScripted.map {x : Build α} (hx : x.IsScripted) (f : α → β) : (f <$> x).IsScripted := by
  rw [map_eq_pure_bind]
  exact hx.bind fun a => isScripted_pure (f a)

theorem isScripted_mapM {γ : Type} {f : γ → Build α} {cs : List γ}
    (h : ∀ c ∈ cs, (f c).IsScripted) : (cs.mapM f).IsScripted := by
  induction cs with
  | nil =>
    rw [List.mapM_nil]
    exact isScripted_pure []
  | cons c cs ih =>
    obtain ⟨hc, hcs⟩ := List.forall_mem_cons.1 h
    rw [List.mapM_cons]
    exact hc.bind fun a => (ih hcs).bind fun more => isScripted_pure (a :: more)

end Build

/-- If one run of such a computation succeeds and takes no ids, none does, and all come to the
same. -/
theorem Build.IsScripted.eq_pure {α : Type} {x : Build α} (h : x.IsScripted) {a : α} {start : Int}
    (hstart : start < maxIndex) (hrun : x.runFrom start = (.ok a, start)) : x = pure a := by
  obtain ⟨s, rfl⟩ := h
  cases s with
  | done outcome =>
    obtain ⟨rfl, -⟩ := runFrom_ofExcept_eq_ok_iff.1 hrun
    rfl
  | ask next =>
    -- The first id would have been taken.
    rw [Script.runFrom_ask_of_lt hstart] at hrun
    obtain ⟨n, hstop, -⟩ := (next ⟨start⟩).exists_handedOut (Int.add_one_le_iff.2 hstart)
    rw [hrun] at hstop
    omega

open Build

/-- What is said of the faults of a build holds even in a session that has issued more ids than there
are. -/
theorem Build.Yields.of_runFrom {α : Type} {x : Build α} {P : α → Prop} {E : Fault → Prop}
    {start stop : Int} {e : Fault} (hx : x.Yields P E) (hscript : x.IsScripted) (hstart : 0 ≤ start)
    (h : x.runFrom start = (.error e, stop)) (he : e ≠ .idsExhausted) : E e := by
  obtain ⟨count, hcount, hrun⟩ :
      ∃ count, IsCount count ∧ (x.runFrom count).1 = .error e := by
    by_cases hle : start ≤ maxIndex
    · exact ⟨start, ⟨hstart, hle⟩, congrArg Prod.fst h⟩
    · -- The session issues no ids, just as if all had been issued.
      obtain ⟨s, rfl⟩ := hscript
      refine ⟨maxIndex, ⟨by decide, Int.le_refl maxIndex⟩, ?_⟩
      rw [s.runFrom_of_maxIndex_le (Int.le_of_lt (Int.not_le.1 hle))] at h
      rw [s.runFrom_of_maxIndex_le (Int.le_refl maxIndex)]
      exact (Prod.mk.inj h).1
  have houtcome := (hx count hcount).2
  cases hpair : x.runFrom count with
  | mk outcome stop =>
    rw [hpair] at hrun houtcome
    obtain rfl : outcome = .error e := hrun
    exact houtcome.resolve_right fun hexhausted => he hexhausted.1

/-! ## The rules of building -/

/-- All builds from an element of a list follow scripts. -/
def Part.IsScripted (p : Part) : Prop :=
  ∀ k, (p.build k).IsScripted

theorem Content.isScripted_read (c : Content) {p : Part} (hp : p.IsScripted) :
    (c.read p).IsScripted := by
  induction c with
  | node k => exact hp k
  | orNil c ih =>
    rw [read]
    split
    · exact isScripted_pure none
    · exact ih.map some
  | text | flag | word v | integer range | nothing what => exact isScripted_ofExcept _

section Values

variable {pos : Position} {fields : Fields Part}

theorem Field.isScripted_read (hfields : ∀ name, ∀ p ∈ fields.get? name, p.IsScripted) (f : Field) :
    (f.read pos fields).IsScripted := by
  cases f with
  | required name content =>
    rw [read]
    apply isScripted_ofExcept_bind
    intro p hp
    exact content.isScripted_read (hfields name p (get?_of_require hp))
  | optional name content absent =>
    rw [read]
    split
    next p hp => exact content.isScripted_read (hfields name p hp)
    next => exact isScripted_pure absent
  | id =>
    rw [read]
    split
    next p hp => exact (isScripted_ofExcept _).map NodeId.mk
    next => exact isScripted_nextId

theorem Values.isScripted_read (hfields : ∀ name, ∀ p ∈ fields.get? name, p.IsScripted)
    (fs : List Field) : (Values.read pos fields fs).IsScripted := by
  induction fs with
  | nil => exact isScripted_pure ()
  | cons f fs ih =>
    rw [read]
    refine (Field.isScripted_read hfields f).bind fun value => ?_
    exact ih.bind fun values => isScripted_pure (value, values)

end Values

section Forms

variable {α : Type} {parts : List Part}

theorem Form.isScripted_readFields (form : Form α) (hparts : ∀ p ∈ parts, p.IsScripted)
    (pos : Position) : (form.readFields pos parts).IsScripted := by
  unfold readFields
  apply isScripted_ofExcept_bind
  intro fields hfields
  have hget : ∀ name, ∀ p ∈ fields.get? name, p.IsScripted :=
    fun name p hp => hparts p (mem_of_get?_fieldsOf hfields hp)
  refine (Values.isScripted_read hget form.fields).bind fun values => ?_
  split
  · exact isScripted_throw _
  · exact isScripted_pure _

theorem Form.isScripted_read (form : Form α) (hparts : ∀ p ∈ parts, p.IsScripted)
    (pos : Position) : (form.read pos parts).IsScripted := by
  cases hblank : form.blank with
  | none =>
    rw [read_eq_readFields (.inr hblank)]
    exact form.isScripted_readFields hparts pos
  | some a =>
    cases parts with
    | nil =>
      rw [read_of_blank hblank]
      exact isScripted_pure a
    | cons p parts =>
      rw [read_eq_readFields (.inl (List.cons_ne_nil p parts))]
      exact form.isScripted_readFields hparts pos

theorem Shape.isScripted_read (shape : Shape α) (hparts : ∀ p ∈ parts, p.IsScripted) (t : Tree) :
    (shape.read t parts).IsScripted := by
  cases shape with
  | form f => exact (isScripted_ofExcept _).bind fun found => f.isScripted_read hparts found.2
  | union table =>
    refine (isScripted_ofExcept _).bind fun found => ?_
    exact (isScripted_ofExcept _).bind fun f => f.isScripted_read hparts found.2
  | row k make =>
    refine (isScripted_ofExcept _).bind fun found => ?_
    have hrow : (parts.mapM fun p : Part => p.build k).IsScripted :=
      isScripted_mapM fun p hp => hparts p hp k
    exact hrow.bind fun nodes => isScripted_pure (make nodes)
  | word v make => exact (isScripted_ofExcept _).map make

end Forms

/-- Every build follows a script. -/
theorem Tree.isScripted_build (t : Tree) (k : NodeKind) : (t.build k).IsScripted := by
  induction t generalizing k with
  | leaf l pos => exact k.shape.isScripted_read (List.forall_mem_nil _) (leaf l pos)
  | list elements pos ih =>
    rw [build_list]
    apply k.shape.isScripted_read
    intro p hp
    obtain ⟨t, ht, rfl⟩ := List.mem_map.1 hp
    exact ih t ht
  | hole => exact k.shape.isScripted_read (List.forall_mem_nil _) hole

end CrateNotation
