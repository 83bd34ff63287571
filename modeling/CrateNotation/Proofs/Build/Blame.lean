import CrateNotation.Proofs.Build.Report
import CrateNotation.Proofs.Tree.Blame

/-!
# What a builder blames

An error of the notation that is found while a node is built says what was expected, and is blamed
on a tree inside the one that is built from.  Wherever a tree is, it has kept a token from there.  So
a builder, like a reader, blames a token.

## Main Statements

* `Tree.Faulty.blamesOneOf` — an error in a tree is blamed on one of the tokens that it was read from
* `Tree.blamesOneOf_of_runFrom` — a builder blames one of the tokens that its tree was read from
-/

namespace CrateNotation

namespace Tree

variable {s t : Tree} {pos : Position} {e : ParseError}

/-- A tree inside another has kept nothing that the other has not. -/
theorem OccursIn.traces_subset (h : s.OccursIn t) : s.traces ⊆ t.traces := by
  induction h with
  | self => exact List.Subset.refl _
  | @element elements pos t mem _ ih => exact List.Subset.trans ih (traces_subset_of_mem mem pos)

/-- Where a tree is, it has kept a token from there. -/
theorem exists_trace_of_pos? (h : t.pos? = some pos) :
    ∃ r ∈ t.traces, r.pos? = some pos ∧ r.kind ≠ .endOfInput := by
  cases t with
  | leaf l p =>
    refine ⟨.leaf l p, List.mem_singleton_self _, ?_⟩
    obtain rfl := Option.some.inj h
    cases l <;> exact ⟨rfl, nofun⟩
  | list elements p =>
    obtain rfl := Option.some.inj h
    exact ⟨.opening p, List.mem_cons_self, rfl, nofun⟩
  | hole => cases h

/-- An error in a tree is blamed on one of the tokens that the tree was read from. -/
theorem Faulty.blamesOneOf {tokens : List Token} (h : t.Faulty (.invalid e))
    (htraces : t.traces ⊆ tokens.map Token.trace) : e.BlamesOneOf tokens := by
  obtain ⟨needed, found, pos, s, rfl, hoccurs, hpos, -⟩ := h.isReported
  obtain ⟨r, hr, hrpos, hkind⟩ := exists_trace_of_pos? hpos
  obtain ⟨token, htoken, rfl⟩ := List.mem_map.1 (htraces (hoccurs.traces_subset hr))
  have hend : token.isEnd = false := decide_eq_false hkind
  -- A list does not keep where it is closed.
  have htokenPos : token.pos = pos := by
    change (if token.kind = .closeParen then none else some token.pos) = some pos at hrpos
    split at hrpos
    · cases hrpos
    · exact Option.some.inj hrpos
  exact ⟨token, htoken, hend, htokenPos⟩

/-- An error of the notation that stops a build from a tree is blamed on one of the tokens that the
tree was read from. -/
theorem blamesOneOf_of_runFrom {tokens : List Token} {k : NodeKind} {start stop : Int}
    (hstart : 0 ≤ start) (htraces : t.traces ⊆ tokens.map Token.trace)
    (h : (t.build k).runFrom start = (.error (.invalid e), stop)) : e.BlamesOneOf tokens :=
  (faulty_of_runFrom hstart h).blamesOneOf htraces

end Tree

end CrateNotation
