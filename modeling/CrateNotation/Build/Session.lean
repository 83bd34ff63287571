import CrateNotation.Crate.Location
import CrateNotation.Error

/-!
# Build sessions

Nodes are built in a session, which issues ids to the nodes that have none written.  Ids are
issued in rising order from zero and never a second time: a build that fails has used up the ids
that it has taken.  `maxIndex` itself is the dummy id and is never issued.

A session is the number of ids that it has issued, which is the next id.  It is an integer, like
ids themselves: a session may be begun at any number.

## Main Definitions

* `Build` — a computation that takes ids from a session and may fail
* `Build.nextId` — takes the next id
-/

namespace CrateNotation

/-- A computation that takes ids from a session, whose state is the number of ids issued, and that
may fail. The ids taken before a failure stay taken. -/
abbrev Build (α : Type) := ExceptT Fault (StateM Int) α

namespace Build

/-- The outcome of a computation in a session that has issued `issued` ids, and the number of ids
issued afterwards. -/
def runFrom {α : Type} (issued : Int) (x : Build α) : Except Fault α × Int :=
  x.run.run issued

/-- An outcome that takes no ids. -/
def ofExcept {α : Type} (x : Except Fault α) : Build α :=
  ExceptT.mk (pure x)

/-- The next id of the session. -/
def nextId : Build NodeId := do
  let issued ← get
  if issued < maxIndex then
    set (issued + 1)
    return ⟨issued⟩
  else
    throw .idsExhausted

section RunFrom

variable {α β : Type} (issued : Int)

@[simp]
theorem runFrom_pure (a : α) : (pure a : Build α).runFrom issued = (.ok a, issued) := rfl

@[simp]
theorem runFrom_throw (e : Fault) : (throw e : Build α).runFrom issued = (.error e, issued) := rfl

@[simp]
theorem runFrom_ofExcept (x : Except Fault α) : (ofExcept x).runFrom issued = (x, issued) := rfl

/-- A computation goes on where the one before it ended, unless that one failed. -/
theorem runFrom_bind (x : Build α) (f : α → Build β) :
    (x >>= f).runFrom issued =
      match x.runFrom issued with
      | (.ok a, issued) => (f a).runFrom issued
      | (.error e, issued) => (.error e, issued) := by
  have unfolded : (x >>= f).runFrom issued =
      match x.runFrom issued with
      | (outcome, issued) => StateT.run (ExceptT.bindCont f outcome : StateM Int _) issued := rfl
  rw [unfolded]
  rcases x.runFrom issued with ⟨_ | _, _⟩ <;> rfl

/-- The next id is the number of ids issued before, as long as there is one. -/
theorem runFrom_nextId :
    nextId.runFrom issued =
      if issued < maxIndex then (.ok ⟨issued⟩, issued + 1) else (.error .idsExhausted, issued) := by
  unfold nextId
  rw [runFrom_bind]
  change (if issued < maxIndex then _ else _ : Build NodeId).runFrom issued = _
  split <;> rfl

end RunFrom

end Build

end CrateNotation
