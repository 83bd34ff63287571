/-!
# Tables of code point ranges

Character classes that go beyond ASCII are given by tables of ranges.  A table lists its ranges
in rising order, both ends included, so that a search may stop at the first range that begins
past the character sought: an ASCII character is settled by the first few entries of any table.

`covers_iff` says that stopping early loses nothing.

## Main Definitions

* `RangeTable` — ranges of code points in rising order
* `RangeTable.covers` — membership
* `RangeTable.Rising` — the order that the search relies on
-/

namespace CrateNotation

/-- Ranges of code points, both ends included. -/
abbrev RangeTable := List (Nat × Nat)

namespace RangeTable

/-- Whether `n` lies in one of the ranges. The search ends at the first range that begins past
`n`. -/
def covers : RangeTable → Nat → Bool
  | [], _ => false
  | (lo, hi) :: more, n => if n < lo then false else n ≤ hi || covers more n

/-- Every range begins past the end of the one before it. -/
def Rising : RangeTable → Prop
  | [] => True
  | [(lo, hi)] => lo ≤ hi
  | (lo, hi) :: (lo', hi') :: more => lo ≤ hi ∧ hi < lo' ∧ Rising ((lo', hi') :: more)

/-- The order of a table can be checked by running through it. -/
instance decidableRising : (t : RangeTable) → Decidable t.Rising
  | [] => isTrue trivial
  | [(lo, hi)] => inferInstanceAs (Decidable (lo ≤ hi))
  | (lo, hi) :: (lo', hi') :: more =>
    have := decidableRising ((lo', hi') :: more)
    inferInstanceAs (Decidable (lo ≤ hi ∧ hi < lo' ∧ Rising ((lo', hi') :: more)))

theorem Rising.tail {r : Nat × Nat} {more : RangeTable} (h : Rising (r :: more)) :
    Rising more := by
  cases more with
  | nil => trivial
  | cons => exact h.2.2

/-- In a rising table no later range begins before an earlier one. -/
theorem Rising.lo_le {r s : Nat × Nat} {more : RangeTable} (h : Rising (r :: more))
    (hs : s ∈ more) : r.1 ≤ s.1 := by
  induction more generalizing r with
  | nil => simp at hs
  | cons q more ih =>
    obtain ⟨hr, hq, hmore⟩ := h
    rcases List.mem_cons.1 hs with rfl | hs
    · omega
    · have := ih hmore hs
      omega

/-- In a rising table the search finds exactly the numbers that lie in some range. -/
theorem covers_iff {t : RangeTable} (h : t.Rising) {n : Nat} :
    t.covers n = true ↔ ∃ r ∈ t, r.1 ≤ n ∧ n ≤ r.2 := by
  induction t with
  | nil => simp [covers]
  | cons r more ih =>
    obtain ⟨lo, hi⟩ := r
    rw [covers]
    split
    next hlt =>
      refine ⟨fun hf => by simp at hf, fun ⟨s, hs, hls, _⟩ => ?_⟩
      rcases List.mem_cons.1 hs with rfl | hs
      · exact absurd hls (by omega)
      · have := h.lo_le hs
        simp only at this
        omega
    next hge =>
      simp only [Bool.or_eq_true, decide_eq_true_eq, ih h.tail, List.mem_cons, exists_eq_or_imp]
      constructor
      · rintro (hh | hh)
        · exact Or.inl ⟨by omega, hh⟩
        · exact Or.inr hh
      · rintro (⟨_, hh⟩ | hh)
        · exact Or.inl hh
        · exact Or.inr hh

end RangeTable

end CrateNotation
