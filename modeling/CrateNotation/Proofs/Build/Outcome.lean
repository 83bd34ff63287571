import CrateNotation.Proofs.Build.Success
import Mathlib.Data.List.Forall2

/-!
# What builds come to

A build ends with a node or with a fault, and has taken ids on its way.  A statement about a build
says what holds of the node in the one case and of the fault in the other.  It is made for sessions
that may have issued any number of ids that can be issued at all, and says that this is still so in
the end.

That all ids have been issued can happen wherever an id is taken.  So this fault is not mentioned
each time: it is always allowed, but only if no id is left.

## Main Definitions

* `Build.IsCount` — how many ids a session may have issued
* `Build.Yields` — what holds of the nodes and the faults of a build

## Main Statements

* `Build.yields_nextId` — what is said about the next id
* `Build.Yields.bind`, `Build.yields_mapM` — one build after another
-/

namespace CrateNotation

namespace Build

variable {α β : Type} {P : α → Prop} {Q : β → Prop} {E : Fault → Prop}

/-- A session may have issued `n` ids. -/
def IsCount (n : Int) : Prop :=
  0 ≤ n ∧ n ≤ maxIndex

/-- The node of a build has the property `P`, and its fault the property `E`. -/
def Outcome (P : α → Prop) (E : Fault → Prop) : Except Fault α × Int → Prop
  | (.ok a, _) => P a
  | (.error e, stop) => E e ∨ (e = .idsExhausted ∧ stop = maxIndex)

/-- Wherever a session begins, the node of the build has the property `P`, or its fault the property
`E`. -/
def Yields (x : Build α) (P : α → Prop) (E : Fault → Prop) : Prop :=
  ∀ start, IsCount start → IsCount (x.runFrom start).2 ∧ Outcome P E (x.runFrom start)

/-- A build can succeed with `a`. -/
def Returns (x : Build α) (a : α) : Prop :=
  ∃ start stop, x.runFrom start = (.ok a, stop)

/-- What a computation and what follows it return is returned by both. -/
theorem Returns.exists_of_bind {x : Build α} {f : α → Build β} {b : β} (h : (x >>= f).Returns b) :
    ∃ a, x.Returns a ∧ (f a).Returns b := by
  obtain ⟨start, stop, h⟩ := h
  obtain ⟨a, mid, hx, hf⟩ := runFrom_bind_eq_ok_iff.1 h
  exact ⟨a, ⟨start, mid, hx⟩, mid, stop, hf⟩

theorem Returns.eq_of_ofExcept {x : Except Fault α} {a : α} (h : (ofExcept x).Returns a) :
    x = .ok a := by
  obtain ⟨start, stop, h⟩ := h
  exact (runFrom_ofExcept_eq_ok_iff.1 h).1

theorem Returns.eq_of_pure {a b : α} (h : (pure a : Build α).Returns b) : a = b := by
  obtain ⟨start, stop, h⟩ := h
  exact (runFrom_pure_eq_ok_iff.1 h).1

theorem yields_pure {a : α} (h : P a) : (pure a : Build α).Yields P E :=
  fun _ hstart => ⟨hstart, h⟩

theorem yields_throw {e : Fault} (h : E e) : (throw e : Build α).Yields P E :=
  fun _ hstart => ⟨hstart, .inl h⟩

theorem yields_ofExcept {x : Except Fault α} (hok : ∀ a, x = .ok a → P a)
    (herror : ∀ e, x = .error e → E e) : (ofExcept x).Yields P E := by
  intro start hstart
  rw [runFrom_ofExcept]
  refine ⟨hstart, ?_⟩
  cases x with
  | ok a => exact hok a rfl
  | error e => exact .inl (herror e rfl)

/-- The next id is less than the dummy, and if there is none, no id is left. -/
theorem yields_nextId : nextId.Yields (fun id => 0 ≤ id.value ∧ id.value ≤ maxIndex) E := by
  intro start hstart
  rw [runFrom_nextId]
  split
  next hlt => exact ⟨⟨Int.le_add_one hstart.1, hlt⟩, hstart⟩
  next hlt => exact ⟨hstart, .inr ⟨rfl, Int.le_antisymm hstart.2 (Int.not_lt.1 hlt)⟩⟩

theorem Yields.mono {P' : α → Prop} {E' : Fault → Prop} {x : Build α} (h : x.Yields P E)
    (hP : ∀ a, P a → P' a) (hE : ∀ e, E e → E' e) : x.Yields P' E' := by
  intro start hstart
  obtain ⟨hstop, houtcome⟩ := h start hstart
  refine ⟨hstop, ?_⟩
  revert houtcome
  rcases x.runFrom start with ⟨e | a, stop⟩
  · exact Or.imp_left (hE e)
  · exact hP a

/-- What follows a build may rely on what holds of its result, and on its having been returned. -/
theorem Yields.bind {x : Build α} {f : α → Build β} (h : x.Yields P E)
    (hf : ∀ a, P a → x.Returns a → (f a).Yields Q E) : (x >>= f).Yields Q E := by
  intro start hstart
  obtain ⟨hmid, houtcome⟩ := h start hstart
  rw [runFrom_bind]
  cases hrun : x.runFrom start with
  | mk outcome mid =>
    rw [hrun] at hmid houtcome
    cases outcome with
    | error e => exact ⟨hmid, houtcome⟩
    | ok a => exact hf a houtcome ⟨start, mid, hrun⟩ mid hmid

/-- What follows a check may rely on what it found. -/
theorem yields_ofExcept_bind {x : Except Fault α} {f : α → Build β}
    (herror : ∀ e, x = .error e → E e) (hf : ∀ a, x = .ok a → (f a).Yields Q E) :
    (ofExcept x >>= f).Yields Q E := by
  refine (yields_ofExcept (fun _ hx => hx) herror).bind ?_
  exact fun a ha _ => hf a ha

theorem Yields.map {x : Build α} {f : α → β} (h : x.Yields (fun a => Q (f a)) E) :
    (f <$> x).Yields Q E := by
  rw [map_eq_pure_bind]
  exact h.bind fun a ha _ => yields_pure ha

/-- The nodes of a row are built one after the other. -/
theorem yields_mapM {γ : Type} {f : γ → Build α} {R : α → γ → Prop} {cs : List γ}
    (h : ∀ c ∈ cs, (f c).Yields (fun a => R a c) E) :
    (cs.mapM f).Yields (fun as => List.Forall₂ R as cs) E := by
  induction cs with
  | nil =>
    rw [List.mapM_nil]
    exact yields_pure .nil
  | cons c cs ih =>
    obtain ⟨hc, hcs⟩ := List.forall_mem_cons.1 h
    rw [List.mapM_cons]
    refine hc.bind fun a ha _ => ?_
    exact (ih hcs).bind fun more hmore _ => yields_pure (.cons ha hmore)

end Build

end CrateNotation
