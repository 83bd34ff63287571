import CrateNotation.Proofs.Token.Prefix

/-!
# Blanks and comments between tokens

Blanks, and comments with the line feeds that end them, may be put in between tokens, and also before
the first and behind the last.  The pieces of the text stay what they are, and those behind the
insertion move on with what follows them.

Nothing goes on with a spelling through a blank or a semicolon, so a piece that ends at the insertion
still ends there.  A comment may go on: if the text ends in a comment, what is put behind it is taken
up by the comment, as far as the next line feed.  The gap is longer then, and is still a gap.

## Main Definitions

* `IsFiller` — blanks and comments that are ended
* `insertAt` — a text with more in it
* `IsBoundary` — the indices between the pieces of a text

## Main Statements

* `IsGap.append_filler` — a gap may be filled up
* `Laid.insert_filler` — pieces of a text with a filler between them
-/

namespace CrateNotation

open Text

/-- Blanks, and comments that are ended by a line feed. -/
inductive IsFiller : List Char → Prop where
  | none : IsFiller []
  | blank {c : Char} {filler : List Char} (blank : isBlank c = true) (more : IsFiller filler) :
    IsFiller (c :: filler)
  | comment {line filler : List Char} (line_ok : ∀ c ∈ line, c ≠ '\n') (more : IsFiller filler) :
    IsFiller (';' :: line ++ '\n' :: filler)

/-- A text with `more` put in at index `k`. -/
def insertAt (text : List Char) (k : Nat) (more : List Char) : List Char :=
  text.take k ++ (more ++ text.drop k)

/-- An index between the pieces of a text: where it begins or ends, or where one of them does. -/
def IsBoundary (text : List Char) (pieces : List Piece) (k : Nat) : Prop :=
  k = 0 ∨ k = text.length ∨ ∃ p ∈ pieces, k = p.start ∨ k = p.stop

variable {text other : List Char} {i j k n d : Nat} {pieces before after : List Piece}
  {filler rest gap : List Char}

/-! ## Fillers are gaps -/

theorem isBlank_feed : isBlank '\n' = true := by decide

/-- A filler is a gap before anything. -/
theorem IsFiller.isGap (h : IsFiller filler) (rest : List Char) : IsGap rest filler := by
  induction h with
  | none => exact .none
  | blank hblank _ ih => exact .blank hblank ih
  | comment line_ok _ ih =>
    refine .comment line_ok ?_ (.blank isBlank_feed ih)
    intro c hc
    exact (Option.some.inj hc).symm

/-- A filler is one line, or it goes on in a new line and is a filler there. -/
theorem IsFiller.exists_line (h : IsFiller filler) :
    ∃ line more, filler = line ++ more ∧ (∀ c ∈ line, c ≠ '\n') ∧
      (more = [] ∨ ∃ below, more = '\n' :: below ∧ IsFiller below) := by
  induction h with
  | none => exact ⟨[], [], rfl, List.forall_mem_nil _, .inl rfl⟩
  | @blank c filler hblank hmore ih =>
    by_cases hc : c = '\n'
    · exact ⟨[], c :: filler, rfl, List.forall_mem_nil _, .inr ⟨filler, by rw [hc], hmore⟩⟩
    · obtain ⟨line, more, rfl, hline, hbelow⟩ := ih
      exact ⟨c :: line, more, rfl, List.forall_mem_cons.2 ⟨hc, hline⟩, hbelow⟩
  | @comment line filler line_ok hmore _ =>
    refine ⟨';' :: line, '\n' :: filler, rfl, ?_, .inr ⟨filler, rfl, hmore⟩⟩
    exact List.forall_mem_cons.2 ⟨by decide, line_ok⟩

/-- A gap may be filled up. If it ends in a comment, this takes up the first line of the filler. -/
theorem IsGap.append_filler (h : IsGap rest gap) (hfiller : IsFiller filler) :
    IsGap rest (gap ++ filler) := by
  induction h with
  | none => exact hfiller.isGap rest
  | blank hblank _ ih => exact .blank hblank ih
  | @comment body gap line stop _ ih =>
    rw [List.append_assoc]
    cases gap with
    | cons c gap => exact .comment line stop ih
    | nil =>
      obtain ⟨first, more, rfl, hfirst, hmore⟩ := hfiller.exists_line
      have hline : ∀ c ∈ body ++ first, c ≠ '\n' := List.forall_mem_append.2 ⟨line, hfirst⟩
      rw [List.nil_append, List.cons_append, ← List.append_assoc, ← List.cons_append]
      rcases hmore with rfl | ⟨below, rfl, hbelow⟩
      · exact .comment hline stop .none
      · refine .comment hline ?_ (.blank isBlank_feed (hbelow.isGap rest))
        intro c hc
        exact (Option.some.inj hc).symm

/-- A filler begins with a blank or a semicolon, and nothing goes on with either. -/
theorem IsFiller.stops (h : IsFiller filler) {kind : TokenKind} (hrest : Stops kind rest.head?) :
    Stops kind (filler ++ rest).head? := by
  cases h with
  | none => exact hrest
  | blank hblank _ =>
    apply stops_of_not_isSymbolChar
    intro c hc
    obtain rfl := Option.some.inj hc
    exact isSymbolChar_of_isBlank hblank
  | comment =>
    apply stops_of_not_isSymbolChar
    intro c hc
    obtain rfl := Option.some.inj hc
    decide

/-! ## Pieces in front of an index and behind it -/

/-- What is laid up to an index and what is laid from there on make one. -/
theorem Laid.append (h : Laid text i before j) (hmore : Laid text j after n) :
    Laid text i (before ++ after) n := by
  induction before generalizing i with
  | nil => exact hmore.gap_append h.1 h.2
  | cons p before ih =>
    obtain ⟨hgap, hfits, hrest⟩ := h
    exact ⟨hgap, hfits, ih hrest⟩

/-- Pieces stand in front of a piece among them and behind it. -/
theorem Laid.of_append_cons {p : Piece} (h : Laid text i (before ++ p :: after) n) :
    Laid text i before p.start ∧ p.Fits text ∧ Laid text p.stop after n := by
  induction before generalizing i with
  | nil =>
    obtain ⟨hgap, hfits, hmore⟩ := h
    exact ⟨hgap, hfits, hmore⟩
  | cons q before ih =>
    obtain ⟨hgap, hfits, hmore⟩ := h
    obtain ⟨hfront, hp, hbehind⟩ := ih hmore
    exact ⟨⟨hgap, hfits, hfront⟩, hp, hbehind⟩

/-- At an index between them, pieces can be taken apart. -/
theorem Laid.exists_split (h : Laid text 0 pieces text.length)
    (hk : IsBoundary text pieces k) :
    ∃ before after, pieces = before ++ after ∧ Laid text 0 before k ∧
      Laid text k after text.length := by
  have hhere : ∀ i, Laid text i [] i := fun i => ⟨le_rfl, by rw [between_self]; exact .none⟩
  rcases hk with rfl | rfl | ⟨p, hp, hk⟩
  · exact ⟨[], pieces, rfl, hhere 0, h⟩
  · exact ⟨pieces, [], (List.append_nil pieces).symm, h, hhere _⟩
  · obtain ⟨front, behind, rfl⟩ := List.append_of_mem hp
    obtain ⟨hfront, hfits, hbehind⟩ := h.of_append_cons
    rcases hk with rfl | rfl
    · exact ⟨front, p :: behind, rfl, hfront, hbehind.cons hfits⟩
    · have hpiece : Laid text p.start [p] p.stop := (hhere p.stop).cons hfits
      refine ⟨front ++ [p], behind, ?_, hfront.append hpiece, hbehind⟩
      rw [List.append_assoc]
      rfl

/-- Pieces stand where they are laid. -/
theorem Laid.bounds (h : Laid text i pieces n) : ∀ p ∈ pieces, i ≤ p.start ∧ p.stop ≤ n := by
  intro p hp
  obtain ⟨front, behind, rfl⟩ := List.append_of_mem hp
  obtain ⟨hfront, -, hbehind⟩ := h.of_append_cons
  exact ⟨hfront.le, hbehind.le⟩

/-! ## Pieces that move on -/

/-- The same piece, `d` characters further on in another text. -/
def Piece.shift (other : List Char) (d : Nat) (p : Piece) : Piece where
  token := { p.token with pos := .ofIndex other (p.start + d) }
  start := p.start + d
  stop := p.stop + d

section Shift

variable (hdrop : other.drop (k + d) = text.drop k)
include hdrop

theorem drop_shift (hk : k ≤ i) : other.drop (i + d) = text.drop i := by
  obtain ⟨e, rfl⟩ := Nat.exists_eq_add_of_le hk
  rw [Nat.add_right_comm, ← List.drop_drop, hdrop, List.drop_drop]

theorem between_shift (hk : k ≤ i) (j : Nat) : between other (i + d) (j + d) = between text i j := by
  rw [between, between, drop_shift hdrop hk, Nat.add_sub_add_right]

theorem Piece.Fits.shift {p : Piece} (h : p.Fits text) (hk : k ≤ p.start) :
    (p.shift other d).Fits other where
  start_lt_stop := Nat.add_lt_add_right h.start_lt_stop d
  stop_le := by
    have hstart := h.start_lt_stop
    have hstop := h.stop_le
    have hlength := congrArg List.length hdrop
    rw [List.length_drop, List.length_drop] at hlength
    show p.stop + d ≤ other.length
    omega
  pos_eq := rfl
  spells := by
    show Spells p.token.kind p.token.lexeme.toList (between other (p.start + d) (p.stop + d))
    rw [between_shift hdrop hk]
    exact h.spells
  stops := by
    show Stops p.token.kind other[p.stop + d]?
    rw [← List.head?_drop, drop_shift hdrop (hk.trans h.start_lt_stop.le), List.head?_drop]
    exact h.stops

/-- What is laid over the rest of a text is laid over the same rest of another. -/
theorem Laid.shift (h : Laid text i pieces n) (hk : k ≤ i) :
    Laid other (i + d) (pieces.map (Piece.shift other d)) (n + d) := by
  induction pieces generalizing i with
  | nil =>
    obtain ⟨hin, hgap⟩ := h
    refine ⟨Nat.add_le_add_right hin d, ?_⟩
    rw [drop_shift hdrop (hk.trans hin), between_shift hdrop hk]
    exact hgap
  | cons p pieces ih =>
    obtain ⟨⟨hip, hgap⟩, hfits, hmore⟩ := h
    have hstart : k ≤ p.start := hk.trans hip
    have hstop : k ≤ p.stop := hstart.trans hfits.start_lt_stop.le
    refine ⟨⟨Nat.add_le_add_right hip d, ?_⟩, hfits.shift hdrop hstart, ih hmore hstop⟩
    show IsGap (other.drop (p.start + d)) (between other (i + d) (p.start + d))
    rw [drop_shift hdrop hstart, between_shift hdrop hk]
    exact hgap

end Shift

/-! ## A filler between pieces -/

section Insertion

variable (hk : k ≤ text.length)
include hk

theorem take_insertAt : (insertAt text k filler).take k = text.take k := by
  rw [insertAt, List.take_left']
  rw [List.length_take, Nat.min_eq_left hk]

theorem drop_insertAt : (insertAt text k filler).drop k = filler ++ text.drop k := by
  rw [insertAt, List.drop_left']
  rw [List.length_take, Nat.min_eq_left hk]

theorem drop_insertAt_length :
    (insertAt text k filler).drop (k + filler.length) = text.drop k := by
  rw [← List.drop_drop, drop_insertAt hk, List.drop_left]

theorem length_insertAt : (insertAt text k filler).length = text.length + filler.length := by
  rw [insertAt, List.length_append, List.length_append, List.length_take, List.length_drop,
    Nat.min_eq_left hk]
  omega

/-- The filler goes into the gap in front of it. -/
theorem Laid.before_filler (h : Laid text i before k) (hfiller : IsFiller filler) :
    Laid (insertAt text k filler) i before (k + filler.length) := by
  have hagree : (insertAt text k filler).take k = text.take k := take_insertAt hk
  have hinserted : between (insertAt text k filler) k (k + filler.length) = filler :=
    (between_of_append (drop_insertAt hk).symm).1
  apply h.transfer hagree (Nat.le_add_right k filler.length)
  · intro i hi hgap
    rw [drop_insertAt_length hk, ← between_append_between hi (Nat.le_add_right k filler.length),
      between_congr hagree le_rfl, hinserted]
    exact hgap.append_filler hfiller
  · intro kind hstops
    rw [← List.head?_drop] at hstops ⊢
    rw [drop_insertAt hk]
    exact hfiller.stops hstops

end Insertion

/-- The pieces of a text with a filler between them are those of the text: the ones in front of it at
their places, and the others further on. -/
theorem Laid.insert_filler (hk : k ≤ text.length) (hbefore : Laid text 0 before k)
    (hafter : Laid text k after text.length) (hfiller : IsFiller filler) :
    Laid (insertAt text k filler) 0
      (before ++ after.map (Piece.shift (insertAt text k filler) filler.length))
      (insertAt text k filler).length := by
  have hfront := hbefore.before_filler hk hfiller
  have hdrop : (insertAt text k filler).drop (k + filler.length) = text.drop k :=
    drop_insertAt_length hk
  have hbehind := hafter.shift hdrop le_rfl
  rw [← length_insertAt hk] at hbehind
  exact hfront.append hbehind

end CrateNotation
