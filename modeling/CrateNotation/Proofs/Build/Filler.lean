import CrateNotation.Proofs.Build.Places
import CrateNotation.Proofs.Schema.Regular
import CrateNotation.Proofs.Source.Lines
import CrateNotation.Proofs.Token.Filler
import CrateNotation.Proofs.Tree.Concatenation

/-!
# Layout between tokens

If blanks and comments are put in between the tokens of a text, its tokens stay the same but for their
positions.  Different indices of a text have different positions, so there is a way to put places
elsewhere that takes each index to where it is in the new text.  Readers and builders of trees do the
same at other places.  So what is read and what is built stay the same, each position taken to where
it is now, and so do the errors.

## Main Statements

* `ofText_insert_filler` — the tokens of a text with a filler between them
* `Tree.reading_ignores_filler` — reading and building do not depend on what is between tokens
-/

namespace CrateNotation

/-! ## Tokens -/

/-- Pieces that are laid over the whole of a text are its tokens. -/
theorem lexFrom_of_laid {text : List Char} {pieces : List Piece}
    (h : Laid text 0 pieces text.length) :
    lexFrom .start text = .ok (pieces.map Piece.token ++ [endToken text]) := by
  have hlexed := lexFrom_laid h le_rfl
  rw [lexFrom_end] at hlexed
  exact hlexed

section Insertion

variable {text : List Char} {pieces : List Piece} {k : Nat} {filler : List Char}

/-- The index in a text with `d` characters put in at `k` of what stands at index `i`. -/
def movedIndex (k d i : Nat) : Nat :=
  if i < k then i else i + d

/-- A piece of a text as a token of the text with a filler in it: one that ends in front of the filler
keeps its position. -/
def Piece.tokenIn (wider : List Char) (k d : Nat) (p : Piece) : Token :=
  if p.stop ≤ k then p.token else { p.token with pos := .ofIndex wider (p.start + d) }

theorem IsBoundary.le_length (hk : IsBoundary text pieces k)
    (h : Laid text 0 pieces text.length) : k ≤ text.length := by
  obtain ⟨before, after, -, -, hafter⟩ := h.exists_split hk
  exact hafter.le

/-- The tokens of a text with a filler between its pieces. -/
theorem lexFrom_insert_filler (h : Laid text 0 pieces text.length)
    (hk : IsBoundary text pieces k) (hfiller : IsFiller filler) :
    lexFrom .start (insertAt text k filler) =
      .ok (pieces.map (Piece.tokenIn (insertAt text k filler) k filler.length) ++
        [⟨.endOfInput, "", .ofIndex (insertAt text k filler) (text.length + filler.length)⟩]) := by
  have hle : k ≤ text.length := hk.le_length h
  obtain ⟨before, after, rfl, hbefore, hafter⟩ := h.exists_split hk
  have hfront : ∀ p ∈ before, p.token = p.tokenIn (insertAt text k filler) k filler.length := by
    intro p hp
    rw [Piece.tokenIn, if_pos (hbefore.bounds p hp).2]
  have hbehind : ∀ p ∈ after,
      (Piece.token ∘ Piece.shift (insertAt text k filler) filler.length) p =
        p.tokenIn (insertAt text k filler) k filler.length := by
    intro p hp
    have hstop : k < p.stop :=
      (hafter.bounds p hp).1.trans_lt (hafter.fits p hp).start_lt_stop
    rw [Piece.tokenIn, if_neg (Nat.not_le.2 hstop)]
    rfl
  rw [lexFrom_of_laid (hbefore.insert_filler hle hafter hfiller), List.map_append, List.map_map,
    List.map_append, List.map_congr_left hfront, List.map_congr_left hbehind, endToken,
    length_insertAt hle]

/-- Each token is moved to where its index is in the new text. -/
theorem tokenIn_eq_relocate (h : Laid text 0 pieces text.length) (hk : IsBoundary text pieces k)
    {φ : Position → Position}
    (hφ : ∀ i ≤ text.length, φ (.ofIndex text i) =
      .ofIndex (insertAt text k filler) (movedIndex k filler.length i)) :
    ∀ p ∈ pieces, p.tokenIn (insertAt text k filler) k filler.length = p.token.relocate φ := by
  have hle : k ≤ text.length := hk.le_length h
  obtain ⟨before, after, rfl, hbefore, hafter⟩ := h.exists_split hk
  intro p hp
  have hfits := h.fits p hp
  have hmoved : φ p.token.pos =
      .ofIndex (insertAt text k filler) (movedIndex k filler.length p.start) := by
    rw [hfits.pos_eq]
    exact hφ p.start (hfits.start_lt_stop.le.trans hfits.stop_le)
  rw [Token.relocate, hmoved, Piece.tokenIn, movedIndex]
  rcases List.mem_append.1 hp with hp | hp
  · have hstop := (hbefore.bounds p hp).2
    have hstart := hfits.start_lt_stop.trans_le hstop
    rw [if_pos hstop, if_pos hstart, ofIndex_congr (take_insertAt hle) hstart.le, ← hfits.pos_eq]
  · have hstart := (hafter.bounds p hp).1
    have hstop := hstart.trans_lt hfits.start_lt_stop
    rw [if_neg (Nat.not_le.2 hstop), if_neg (Nat.not_lt.2 hstart)]

/-- Indices of a text can be taken to any indices of another, since their positions differ. -/
theorem exists_move (text other : List Char) (f : Nat → Nat) :
    ∃ φ : Position → Position, ∀ i ≤ text.length,
      φ (.ofIndex text i) = .ofIndex other (f i) := by
  let place := fun i : { i // i ≤ text.length } => Position.ofIndex text i
  have hplace : Function.Injective place := by
    intro i j hij
    exact Subtype.ext (Position.ofIndex_inj i.2 j.2 hij)
  refine ⟨Function.extend place (fun i => .ofIndex other (f i)) id, ?_⟩
  intro i hi
  exact hplace.extend_apply _ _ ⟨i, hi⟩

end Insertion

/-! ## Trees and nodes -/

namespace Tree

section Moved

variable {φ : Position → Position} {options : ReadOptions} {text other : String}
  {tokens : List Token}

/-- If the tokens of another text are those of a text at other places, so is what is read. -/
theorem ofText_relocate (h : Token.ofText text = .ok tokens)
    (hother : Token.ofText other = .ok (tokens.map (Token.relocate φ))) :
    ofText options other = relocateRead φ (relocate φ) (ofText options text) := by
  rw [ofText_of_tokens h, ofText_of_tokens hother, readFirst_relocate]

theorem allOfText_relocate (h : Token.ofText text = .ok tokens)
    (hother : Token.ofText other = .ok (tokens.map (Token.relocate φ))) :
    allOfText options other =
      relocateRead φ (List.map (relocate φ)) (allOfText options text) := by
  rw [allOfText_of_tokens h, allOfText_of_tokens hother, readAll_relocate]

end Moved

/-- Blanks and comments between tokens are invisible.  They may be put in at the beginning of a text
that makes tokens, at its end, and where a token begins or ends.  The text makes the same tokens then:
those that end in front of the insertion keep their positions, and the others, the end of input among
them, stand as many characters further on as have been put in.

So there is a way to move positions which takes the tokens of the text to those of the new one.  The
first tree and all trees of the new text are those of the text, moved in this way, or an error is
moved.  And from a tree that is moved every kind of node is built as from the tree itself: the same
node with the same ids, or the same fault, moved. -/
theorem reading_ignores_filler {text : String} {tokens : List Token}
    (h : Token.ofText text = .ok tokens) :
    (∃ pieces, Laid text.toList 0 pieces text.toList.length) ∧
    ∀ pieces, Laid text.toList 0 pieces text.toList.length →
      tokens = pieces.map Piece.token ++ [endToken text.toList] ∧
      ∀ k, IsBoundary text.toList pieces k → ∀ filler, IsFiller filler →
        let wider := insertAt text.toList k filler
        let moved := (pieces.map fun p => if p.stop ≤ k then p.token
            else { p.token with pos := .ofIndex wider (p.start + filler.length) }) ++
          [⟨.endOfInput, "", .ofIndex wider (text.toList.length + filler.length)⟩]
        Token.ofText (String.ofList wider) = .ok moved ∧
        ∃ φ : Position → Position, moved = tokens.map (Token.relocate φ) ∧
          (∀ options, ofText options (String.ofList wider) =
            relocateRead φ (relocate φ) (ofText options text)) ∧
          (∀ options, allOfText options (String.ofList wider) =
            relocateRead φ (List.map (relocate φ)) (allOfText options text)) ∧
          (∀ (t : Tree) (kind : NodeKind) (start : Int),
            ((t.relocate φ).build kind).runFrom start =
              (relocateResult φ id ((t.build kind).runFrom start).1,
                ((t.build kind).runFrom start).2)) := by
  constructor
  · obtain ⟨pieces, -, -, hlaid⟩ := exists_laid_of_ofText h
    exact ⟨pieces, hlaid⟩
  intro pieces hlaid
  obtain rfl : tokens = pieces.map Piece.token ++ [endToken text.toList] :=
    Except.ok.inj (h.symm.trans (lexFrom_of_laid hlaid))
  refine ⟨rfl, ?_⟩
  intro k hk filler hfiller wider moved
  have hlexed : Token.ofText (String.ofList wider) = .ok moved := by
    rw [Token.ofText, String.toList_ofList]
    exact lexFrom_insert_filler hlaid hk hfiller
  obtain ⟨φ, hφ⟩ := exists_move text.toList wider (movedIndex k filler.length)
  have hend : φ (.ofIndex text.toList text.toList.length) =
      .ofIndex wider (text.toList.length + filler.length) := by
    rw [hφ _ le_rfl, movedIndex, if_neg (Nat.not_lt.2 (hk.le_length hlaid))]
  have hmoved : moved =
      (pieces.map Piece.token ++ [endToken text.toList]).map (Token.relocate φ) := by
    rw [List.map_append, List.map_map, List.map_singleton, Token.relocate, endToken, hend]
    show pieces.map (Piece.tokenIn wider k filler.length) ++ _ = _
    rw [List.map_congr_left (tokenIn_eq_relocate hlaid hk hφ)]
    rfl
  refine ⟨hlexed, φ, hmoved, ?_, ?_, ?_⟩
  · intro options
    exact ofText_relocate h (hmoved ▸ hlexed)
  · intro options
    exact allOfText_relocate h (hmoved ▸ hlexed)
  · intro t kind start
    rw [build_relocate, Build.runFrom_relocate]

/-- A number and a symbol that stand without a gap between them are parted by a blank and a
comment. -/
theorem reading_ignores_filler_between :
    let number : Piece := ⟨⟨.number, "12", ⟨0, 1, 1⟩⟩, 0, 2⟩
    let symbol : Piece := ⟨⟨.symbol, "abc", ⟨2, 1, 3⟩⟩, 2, 5⟩
    Token.ofText "12abc" = .ok [number.token, symbol.token, ⟨.endOfInput, "", ⟨5, 1, 6⟩⟩] ∧
      IsBoundary "12abc".toList [number, symbol] 2 ∧ IsFiller " ;x\n".toList ∧
      Token.ofText "12 ;x\nabc" =
        .ok [number.token, ⟨.symbol, "abc", ⟨6, 2, 1⟩⟩, ⟨.endOfInput, "", ⟨9, 2, 4⟩⟩] := by
  intro number symbol
  have htokens : Token.ofText "12abc" =
      .ok [number.token, symbol.token, ⟨.endOfInput, "", ⟨5, 1, 6⟩⟩] := by decide +kernel
  have hboundary : IsBoundary "12abc".toList [number, symbol] 2 :=
    .inr (.inr ⟨number, List.mem_cons_self, .inr rfl⟩)
  have hfiller : IsFiller " ;x\n".toList :=
    .blank (by decide)
      (@IsFiller.comment ['x'] [] (List.forall_mem_singleton.2 (by decide)) .none)
  have hdigits : IsDigits "12".toList := ⟨by decide, List.all_eq_true.1 (by decide +kernel)⟩
  have hletters : IsName "abc".toList := isName_of_isPlainName (by decide)
  have hstops : Stops .number (some 'a') := by
    intro c hc
    obtain rfl := Option.some.inj hc
    decide
  have hends : Stops .symbol none := by
    intro c hc
    cases hc
  have hnumber : number.Fits "12abc".toList :=
    { start_lt_stop := by decide
      stop_le := by decide
      pos_eq := by decide
      spells := .number (.inl hdigits)
      stops := hstops }
  have hsymbol : symbol.Fits "12abc".toList :=
    { start_lt_stop := by decide
      stop_le := by decide
      pos_eq := by decide
      spells := .symbol ⟨hletters, by decide⟩
      stops := hends }
  have hlaid : Laid "12abc".toList 0 [number, symbol] "12abc".toList.length :=
    ⟨⟨by decide, .none⟩, hnumber, ⟨by decide, .none⟩, hsymbol, by decide, .none⟩
  refine ⟨htokens, hboundary, hfiller, ?_⟩
  obtain ⟨hwider, -⟩ := ((reading_ignores_filler htokens).2 _ hlaid).2 2 hboundary _ hfiller
  have htext : String.ofList (insertAt "12abc".toList 2 " ;x\n".toList) = "12 ;x\nabc" := by
    decide +kernel
  rw [htext] at hwider
  rw [hwider]
  decide +kernel

end Tree

end CrateNotation
