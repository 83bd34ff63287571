import CrateNotation.Proofs.Tree.Flattening

/-!
# What a reader blames

Every error of a reader is blamed on a token of the row that it reads: on the parenthesis that opens
a list too many or closes one too many, on the one that opens a list which does not end, or on what
follows the tree that should have been the last.  Only that there is no tree at all is nobody's
fault.

## Main Definitions

* `ParseError.BlamesOneOf` — an error is blamed on one of the tokens of a row

## Main Statements

* `Tree.blamesOneOf_of_readFirst`, `Tree.blamesOneOf_of_readAll` — the errors of readers are
-/

namespace CrateNotation

/-- `e.BlamesOneOf tokens` says that the error `e` is blamed on one of the tokens, and not on the
end of input. -/
def ParseError.BlamesOneOf (tokens : List Token) : ParseError → Prop
  | unexpectedToken lexeme pos =>
    ∃ t ∈ tokens, t.isEnd = false ∧ t.pos = pos ∧ t.lexeme = lexeme
  | expected _ _ pos => ∃ t ∈ tokens, t.isEnd = false ∧ t.pos = pos
  | unterminatedList pos | nestingTooDeep _ pos =>
    ∃ t ∈ tokens, t.isEnd = false ∧ t.pos = pos ∧ t.kind = .openParen
  | unexpectedClose pos => ∃ t ∈ tokens, t.isEnd = false ∧ t.pos = pos ∧ t.kind = .closeParen
  | emptyInput => True
  | lexical _ => False

/-- A token that means anything but the end is not the end of input. -/
theorem Token.isEnd_of_role_ne {t : Token} (h : t.role ≠ .ends) : t.isEnd = false := by
  rw [Bool.eq_false_iff, ne_eq, ← role_eq_ends_iff]
  exact h

namespace Tree

variable {limit depth : Int} {opened : List OpenList} {all ts rest : List Token} {e : ParseError}

/-- The lists `opened` were opened by tokens of the row. -/
def OpenedBy (all : List Token) (opened : List OpenList) : Prop :=
  ∀ l ∈ opened, ∃ t ∈ all, t.isEnd = false ∧ t.pos = l.pos ∧ t.kind = .openParen

/-- A text that ends inside lists is blamed on the innermost. -/
theorem OpenedBy.unfinished (h : OpenedBy all opened) :
    (unfinished opened).BlamesOneOf all := by
  cases opened with
  | nil => trivial
  | cons l around => exact h l List.mem_cons_self

/-- What is put into an open list does not change who opened it. -/
theorem OpenedBy.push {l : OpenList} (h : OpenedBy all (l :: opened)) (t : Tree) :
    OpenedBy all (l.push t :: opened) := by
  obtain ⟨hl, hopened⟩ := List.forall_mem_cons.1 h
  exact List.forall_mem_cons.2 ⟨hl, hopened⟩

/-- A tree that is delivered is not what an error is about. -/
theorem blamesOneOf_of_deliver {tree : Tree}
    (ih : ∀ {opened : List OpenList}, OpenedBy all opened →
      readOn limit depth opened ts = (.error e, rest) → e.BlamesOneOf all)
    (hopened : OpenedBy all opened)
    (h : deliver limit depth tree opened ts = (.error e, rest)) : e.BlamesOneOf all := by
  cases opened with
  | nil => cases h
  | cons around opened => exact ih (hopened.push tree) h

/-- An error inside open lists is blamed on a token that is read, or on one that opened a list. -/
theorem blamesOneOf_of_readOn (hopened : OpenedBy all opened) (hts : ts ⊆ all)
    (h : readOn limit depth opened ts = (.error e, rest)) : e.BlamesOneOf all := by
  induction ts generalizing opened with
  | nil =>
    rw [readOn] at h
    obtain ⟨rfl, -⟩ : unfinished opened = e ∧ [] = rest := by simpa using h
    exact hopened.unfinished
  | cons t ts ih =>
    obtain ⟨ht, hmore⟩ := List.cons_subset.1 hts
    cases hrole : t.role with
    | opens =>
      have hend : t.isEnd = false := Token.isEnd_of_role_ne (by simp [hrole])
      have hblame : ∃ t' ∈ all, t'.isEnd = false ∧ t'.pos = t.pos ∧ t'.kind = .openParen :=
        ⟨t, ht, hend, rfl, Token.kind_of_opens hrole⟩
      by_cases hdepth : depth + opened.length + 1 ≤ limit
      · rw [readOn_opens hrole hdepth] at h
        exact ih (List.forall_mem_cons.2 ⟨hblame, hopened⟩) hmore h
      · rw [readOn_tooDeep hrole (Int.not_le.1 hdepth)] at h
        cases h
        exact hblame
    | closes =>
      have hend : t.isEnd = false := Token.isEnd_of_role_ne (by simp [hrole])
      cases opened with
      | nil =>
        rw [readOn_unopened hrole] at h
        cases h
        exact ⟨t, ht, hend, rfl, Token.kind_of_closes hrole⟩
      | cons l opened =>
        rw [readOn_closes hrole] at h
        exact blamesOneOf_of_deliver (fun ho => ih ho hmore) (List.forall_mem_cons.1 hopened).2 h
    | leaf l =>
      rw [readOn_leaf hrole] at h
      exact blamesOneOf_of_deliver (fun ho => ih ho hmore) hopened h
    | ends =>
      rw [readOn_ends hrole] at h
      cases h
      exact hopened.unfinished

/-- An error in a tree is blamed on a token of the row. -/
theorem blamesOneOf_of_read (hts : ts ⊆ all) (h : read limit depth ts = (.error e, rest)) :
    e.BlamesOneOf all :=
  blamesOneOf_of_readOn (by simp [OpenedBy]) hts h

/-- An error in the first tree of a row, or behind it, is blamed on a token of the row. -/
theorem blamesOneOf_of_readFirst {options : ReadOptions}
    (h : (readFirst options ts).1 = .error e) : e.BlamesOneOf ts := by
  rw [readFirst] at h
  split at h
  · cases h
    trivial
  split at h
  next tree t rest hread =>
    split at h
    next hrefused =>
      rw [Bool.and_eq_true, Bool.not_eq_true'] at hrefused
      cases h
      obtain ⟨consumed, rfl, -⟩ := traces_of_read (Int.natCast_nonneg _) hread
      exact ⟨t, List.mem_append_right consumed List.mem_cons_self, hrefused.2, rfl, rfl⟩
    · cases h
  next => exact blamesOneOf_of_read (List.Subset.refl ts) (Prod.ext h rfl)

/-- An error in any tree of a row is blamed on a token of the row. -/
theorem blamesOneOf_of_readAll (hlimit : 0 ≤ limit) (hts : ts ⊆ all)
    (h : (readAll limit ts).1 = .error e) : e.BlamesOneOf all := by
  induction ts using row_induct limit with
  | done ts hend =>
    rw [readAll_of_atEnd hend] at h
    cases h
  | failed ts e' rest hend hread =>
    rw [readAll_of_error hend hread] at h
    obtain rfl := Except.error.inj h
    exact blamesOneOf_of_read hts hread
  | tree ts tree rest hread ih =>
    obtain ⟨consumed, rfl, -⟩ := traces_of_read hlimit hread
    rw [readAll_of_read hread] at h
    apply ih (List.append_subset.1 hts).2
    cases hall : (readAll limit rest).1 with
    | error e' =>
      rw [hall] at h
      exact h
    | ok trees =>
      rw [hall] at h
      cases h

end Tree

end CrateNotation
