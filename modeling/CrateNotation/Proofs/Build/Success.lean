import CrateNotation.Build.Session

/-!
# Computations that succeed

What a build does is put together from few steps.  Most lemmas here take a successful run of such a
step apart into the successful runs of its parts, with the numbers of ids issued in between.

## Main Statements

* `exists_of_bind_eq_ok` — one check after another
* `Build.runFrom_bind_eq_ok_iff` — one computation after another
* `Build.runFrom_nextId_eq_ok_iff` — taking the next id
* `Build.runFrom_nextId_bind_of_lt`, `Build.runFrom_nextId_bind_of_not_lt` — taking the next id and
  going on, as long as one is left and after that
-/

namespace CrateNotation

/-- Where one check after another succeeds, both do. -/
theorem exists_of_bind_eq_ok {ε α β : Type} {x : Except ε α} {f : α → Except ε β} {b : β}
    (h : x >>= f = .ok b) : ∃ a, x = .ok a ∧ f a = .ok b := by
  cases x with
  | error e => cases h
  | ok a => exact ⟨a, rfl, h⟩

namespace Build

variable {α β : Type} {start stop : Int}

theorem runFrom_pure_eq_ok_iff {a b : α} :
    (pure a : Build α).runFrom start = (.ok b, stop) ↔ a = b ∧ start = stop := by
  rw [runFrom_pure, Prod.mk.injEq, Except.ok.injEq]

theorem runFrom_ofExcept_eq_ok_iff {x : Except Fault α} {a : α} :
    (ofExcept x).runFrom start = (.ok a, stop) ↔ x = .ok a ∧ start = stop := by
  rw [runFrom_ofExcept, Prod.mk.injEq]

/-- A computation and what follows it succeed one after the other. -/
theorem runFrom_bind_eq_ok_iff {x : Build α} {f : α → Build β} {b : β} :
    (x >>= f).runFrom start = (.ok b, stop) ↔
      ∃ a mid, x.runFrom start = (.ok a, mid) ∧ (f a).runFrom mid = (.ok b, stop) := by
  rw [runFrom_bind]
  constructor
  · intro h
    split at h
    next a mid hx => exact ⟨a, mid, hx, h⟩
    next e mid hx => cases h
  · rintro ⟨a, mid, hx, hf⟩
    rw [hx]
    exact hf

theorem runFrom_map_eq_ok_iff {x : Build α} {f : α → β} {b : β} :
    (f <$> x).runFrom start = (.ok b, stop) ↔
      ∃ a, x.runFrom start = (.ok a, stop) ∧ f a = b := by
  rw [map_eq_pure_bind, runFrom_bind_eq_ok_iff]
  constructor
  · rintro ⟨a, mid, hx, hf⟩
    obtain ⟨rfl, rfl⟩ := runFrom_pure_eq_ok_iff.1 hf
    exact ⟨a, hx, rfl⟩
  · rintro ⟨a, hx, rfl⟩
    exact ⟨a, stop, hx, runFrom_pure stop (f a)⟩

/-- The next id is the number of ids issued before, and one more has been issued then. -/
theorem runFrom_nextId_eq_ok_iff {id : NodeId} :
    nextId.runFrom start = (.ok id, stop) ↔
      start < maxIndex ∧ id = ⟨start⟩ ∧ stop = start + 1 := by
  rw [runFrom_nextId]
  split
  next hlt =>
    rw [Prod.mk.injEq, Except.ok.injEq]
    constructor
    · rintro ⟨rfl, rfl⟩
      exact ⟨hlt, rfl, rfl⟩
    · rintro ⟨-, rfl, rfl⟩
      exact ⟨rfl, rfl⟩
  next hlt =>
    constructor
    · intro h
      cases h
    · rintro ⟨hlt', -⟩
      exact absurd hlt' hlt

/-- What asks for an id goes on with it as long as one is left. -/
theorem runFrom_nextId_bind_of_lt (h : start < maxIndex) (next : NodeId → Build α) :
    (nextId >>= next).runFrom start = (next ⟨start⟩).runFrom (start + 1) := by
  rw [runFrom_bind, runFrom_nextId, if_pos h]

/-- After that it fails, and the session stays as it is. -/
theorem runFrom_nextId_bind_of_not_lt (h : ¬ start < maxIndex) (next : NodeId → Build α) :
    (nextId >>= next).runFrom start = (.error .idsExhausted, start) := by
  rw [runFrom_bind, runFrom_nextId, if_neg h]

end Build

end CrateNotation
