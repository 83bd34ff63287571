import CrateNotation.Proofs.Token.Layout

/-!
# Texts that begin alike

What is laid over the beginning of a text is settled there, but for its last end: a spelling that
ends where the beginning does may go on in the text, and so may a comment.  So if another text begins
alike, the same pieces are laid over it as soon as its first character after that does no harm.

Texts may begin alike and then differ because they are cut, because more is written, or because
something has been put in between.

## Main Statements

* `Laid.transfer` — what is laid over the beginning of a text is laid over that of another
* `Laid.congr_take` — in particular if they agree in one character more
-/

namespace CrateNotation

variable {text other : List Char} {i j k m n : Nat} {pieces : List Piece}

/-! ## Intervals -/

section Agreement

variable (h : other.take n = text.take n)
include h

theorem take_congr (hj : j ≤ n) : other.take j = text.take j := by
  have htake := congrArg (List.take j) h
  rwa [List.take_take, List.take_take, Nat.min_eq_left hj] at htake

theorem between_congr (hj : j ≤ n) : between other i j = between text i j := by
  rw [between, between, ← List.drop_take, ← List.drop_take, take_congr h hj]

theorem ofIndex_congr (hi : i ≤ n) : Position.ofIndex other i = .ofIndex text i := by
  rw [Position.ofIndex, Position.ofIndex, take_congr h hi]

theorem getElem?_congr (hk : k < n) : other[k]? = text[k]? := by
  rw [← List.getElem?_take_of_lt hk, h, List.getElem?_take_of_lt hk]

theorem le_length_of_take (hn : n ≤ text.length) : n ≤ other.length := by
  have hlength := congrArg List.length h
  rw [List.length_take, List.length_take, Nat.min_eq_left hn] at hlength
  omega

end Agreement

/-- A piece of a text that begins at an index is walked over to reach the index behind it. -/
theorem ofIndex_after_of_drop {spelling rest : List Char} (h : text.drop i = spelling ++ rest)
    (hi : i ≤ text.length) :
    (Position.ofIndex text i).after spelling = .ofIndex text (i + spelling.length) := by
  have hlength := congrArg List.length h
  rw [List.length_drop, List.length_append] at hlength
  obtain ⟨hbetween, -⟩ := between_of_append h.symm
  rw [← ofIndex_after_between (Nat.le_add_right i spelling.length) (by omega), hbetween]

/-! ## Gaps and pieces -/

/-- Whether a piece of text is a gap depends on the first character behind it. -/
theorem IsGap.congr_head {rest others gap : List Char} (h : IsGap rest gap)
    (hhead : rest.head? = others.head?) : IsGap others gap := by
  induction h with
  | none => exact .none
  | blank hblank _ ih => exact .blank hblank ih
  | @comment body gap line stop _ ih =>
    refine .comment line ?_ ih
    rwa [List.head?_append, ← hhead, ← List.head?_append]

/-- A piece fits in another text that agrees with the first one up to where it ends, unless its
spelling goes on there. -/
theorem Piece.Fits.transfer {p : Piece} (h : p.Fits text)
    (hagree : other.take p.stop = text.take p.stop)
    (hstops : Stops p.token.kind text[p.stop]? → Stops p.token.kind other[p.stop]?) :
    p.Fits other where
  start_lt_stop := h.start_lt_stop
  stop_le := le_length_of_take hagree h.stop_le
  pos_eq := by
    rw [ofIndex_congr hagree h.start_lt_stop.le]
    exact h.pos_eq
  spells := by
    rw [between_congr hagree le_rfl]
    exact h.spells
  stops := hstops h.stops

theorem Laid.le (h : Laid text i pieces n) : i ≤ n := by
  induction pieces generalizing i with
  | nil => exact h.1
  | cons p pieces ih =>
    obtain ⟨⟨hip, -⟩, hfits, hmore⟩ := h
    exact hip.trans (hfits.start_lt_stop.le.trans (ih hmore))

/-- What is laid over the beginning of a text, up to an index, is laid over another text that agrees
with it so far. In the other text the last gap may end further on. -/
theorem Laid.transfer (h : Laid text i pieces n) (hagree : other.take n = text.take n)
    (hnm : n ≤ m)
    (hgap : ∀ i ≤ n, IsGap (text.drop n) (between text i n) →
      IsGap (other.drop m) (between other i m))
    (hstops : ∀ kind, Stops kind text[n]? → Stops kind other[n]?) : Laid other i pieces m := by
  induction pieces generalizing i with
  | nil => exact ⟨h.1.trans hnm, hgap i h.1 h.2⟩
  | cons p pieces ih =>
    obtain ⟨⟨hip, hbefore⟩, hfits, hmore⟩ := h
    have hstop : p.stop ≤ n := hmore.le
    have hstart : p.start < n := hfits.start_lt_stop.trans_le hstop
    refine ⟨⟨hip, ?_⟩, ?_, ih hmore⟩
    · rw [between_congr hagree hstart.le]
      apply hbefore.congr_head
      rw [List.head?_drop, List.head?_drop, getElem?_congr hagree hstart]
    · apply hfits.transfer (take_congr hagree hstop)
      rcases hstop.lt_or_eq with hlt | heq
      · rw [getElem?_congr hagree hlt]
        exact id
      · rw [heq]
        exact hstops p.token.kind

/-- What is laid over the beginning of a text is laid over every other that agrees with it in one
character more. -/
theorem Laid.congr_take (h : Laid text i pieces n)
    (hagree : other.take (n + 1) = text.take (n + 1)) : Laid other i pieces n := by
  have hnext : other[n]? = text[n]? := getElem?_congr hagree n.lt_succ_self
  have hbefore : other.take n = text.take n := take_congr hagree n.le_succ
  apply h.transfer hbefore le_rfl
  · intro i _ hgap
    rw [between_congr hbefore le_rfl]
    apply hgap.congr_head
    rw [List.head?_drop, List.head?_drop, hnext]
  · intro kind hkind
    rwa [hnext]

end CrateNotation
