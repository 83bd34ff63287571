import CrateNotation.FrontEnd
import CrateNotation.Proofs.Build.Places
import CrateNotation.Proofs.Build.Soundness
import CrateNotation.Proofs.Token.Numeral

/-!
# How building fails

A text from which no crate is built has an error of the notation in it, with two exceptions.  A
session can run out of ids.  And a number can have more digits than are worked out: this is found
before the number is compared with any range, so the fault does not say which number it is.

That nothing else can stop a build follows from what can be wrong with a tree.  A tree that is read
from a text has no holes, so there is always something that can be blamed.

## Main Definitions

* `Tree.OccursIn` — a tree is another one, or stands inside it
* `Tree.StopsWith` — how building from a tree may end without a node

## Main Statements

* `Tree.expectIn_numeral` — what is made of a numeral where a number in a range is needed
* `Tree.front_end_faults` — how the front end fails
* `Tree.front_end_gives_up` — it gives up at a number with too many digits
-/

namespace CrateNotation

open Text (Numeral)

namespace Tree

/-- `s.OccursIn t` says that `s` is `t` or stands inside it. -/
inductive OccursIn (s : Tree) : Tree → Prop where
  | self : OccursIn s s
  | element {elements : List Tree} {pos : Position} {t : Tree} (mem : t ∈ elements)
    (occurs : OccursIn s t) : OccursIn s (list elements pos)

/-- What stands inside a lexable tree is lexable. -/
theorem OccursIn.lexable {s t : Tree} (h : s.OccursIn t) (ht : t.Lexable) : s.Lexable := by
  induction h with
  | self => exact ht
  | element mem _ ih =>
    cases ht with
    | list pos elements_ok => exact ih (elements_ok _ mem)

/-- `t.StopsWith e issued` says that a build from the tree `t` may end with the fault `e` when so many
ids have been issued. -/
inductive StopsWith (t : Tree) : Fault → Int → Prop where
  /-- There is an error of the notation. -/
  | invalid (error : ParseError) (issued : Int) : StopsWith t (.invalid error) issued
  /-- All ids have been issued. -/
  | exhausted : StopsWith t .idsExhausted maxIndex
  /-- A number has more digits than are worked out. -/
  | tooManyDigits {text : String} {pos : Position} {numeral : Numeral} (issued : Int)
    (occurs : OccursIn (leaf (.number text) pos) t)
    (wellFormed : Numeral.ofText? text.toList = some numeral)
    (long : Numeral.digitLimit < numeral.digits.length) :
    StopsWith t (.tooManyDigits numeral.digits.length) issued

/-- What stops a build from an element of a list stops the build from the list. -/
theorem StopsWith.element {elements : List Tree} {pos : Position} {t : Tree} {e : Fault}
    {issued : Int} (h : t.StopsWith e issued) (mem : t ∈ elements) :
    (list elements pos).StopsWith e issued := by
  cases h with
  | invalid error => exact .invalid error issued
  | exhausted => exact .exhausted
  | tooManyDigits _ occurs wellFormed long =>
    exact .tooManyDigits issued (.element mem occurs) wellFormed long

/-- A lexable tree has no hole, so that whatever is needed instead of it can be said. -/
theorem Misread.stopsWith {names : List String} {t : Tree} {e : Fault} (h : t.Misread names e)
    (ht : t.Lexable) (issued : Int) : t.StopsWith e issued := by
  induction h with
  | element mem _ ih =>
    cases ht with
    | list pos elements_ok => exact (ih (elements_ok _ mem)).element mem
  | @misplaced t needed =>
    rcases t with ⟨l, pos⟩ | ⟨_ | ⟨t, ts⟩, pos⟩ | _
    · exact .invalid _ issued
    · exact .invalid _ issued
    · exact .invalid _ issued
    · cases ht
  | wrongSymbol | noNumeral | outOfRange | unpaired => exact .invalid _ issued
  | tooManyDigits wellFormed long => exact .tooManyDigits issued .self wellFormed long

/-- The same holds of whatever is wrong with a lexable tree. -/
theorem Faulty.stopsWith {t : Tree} {e : Fault} (h : t.Faulty e) (ht : t.Lexable) (issued : Int) :
    t.StopsWith e issued := by
  induction h with
  | element mem _ ih =>
    cases ht with
    | list pos elements_ok => exact (ih (elements_ok _ mem)).element mem
  | misread misread => exact misread.stopsWith ht issued
  | missing | refused => exact .invalid _ issued

/-- A build from a lexable tree is stopped in one of these ways. -/
theorem stopsWith_of_runFrom {t : Tree} {k : NodeKind} {start issued : Int} {e : Fault}
    (ht : t.Lexable) (hstart : Build.IsCount start)
    (h : (t.build k).runFrom start = (.error e, issued)) : t.StopsWith e issued := by
  have hyields := yields_build t k start hstart
  rw [h] at hyields
  obtain ⟨-, hfaulty | ⟨rfl, rfl⟩⟩ := hyields
  · exact hfaulty.stopsWith ht issued
  · exact .exhausted

end Tree

/-! ## Numbers -/

namespace Tree

/-- Where a number in a range is needed, a numeral with too many digits is not worked out. Any other
is accepted, or it is blamed itself. -/
theorem expectIn_numeral {text : String} {numeral : Numeral}
    (h : Numeral.ofText? text.toList = some numeral) (pos : Position) (range : IntRange) :
    (leaf (.number text) pos).expectIn range =
      if Numeral.digitLimit < numeral.digits.length then
        .error (.tooManyDigits numeral.digits.length)
      else if range.lo ≤ numeral.value ∧ numeral.value ≤ range.hi then .ok numeral.value
      else .error (.expected range.describe (toString numeral.value) pos) := by
  rw [expectIn, expectNumber, h]
  dsimp only
  split
  · rfl
  · rfl

/-- The front end fails with an error of the notation, or because all ids have been issued, or
because a number in the text has more digits than are worked out, and in no other way.  This holds of
crates and of all other nodes.  A number that is read from a text is a numeral, and where a number in
a range is needed it is accepted, or blamed where it stands, unless it has too many digits. -/
theorem front_end_faults (options : ReadOptions) (text : String) :
    (∀ (e : Fault) (issued : Int), Crate.ofText options text = (.error e, issued) →
      (∃ error, e = .invalid error) ∨ ∃ t, ofText options text = .ok t ∧ t.StopsWith e issued) ∧
    (∀ t : Tree, ofText options text = .ok t →
      (∀ (k : NodeKind) (e : Fault) (issued : Int),
        (t.build k).runFrom 0 = (.error e, issued) → t.StopsWith e issued) ∧
      (∀ (number : String) (pos : Position), (leaf (.number number) pos).OccursIn t →
        ∃ numeral, Numeral.ofText? number.toList = some numeral ∧
          ∀ range : IntRange, (leaf (.number number) pos).expectIn range =
            if Numeral.digitLimit < numeral.digits.length then
              .error (.tooManyDigits numeral.digits.length)
            else if range.lo ≤ numeral.value ∧ numeral.value ≤ range.hi then .ok numeral.value
            else .error (.expected range.describe (toString numeral.value) pos))) := by
  have hzero : Build.IsCount 0 := ⟨Int.le_refl 0, by decide⟩
  refine ⟨?_, ?_⟩
  · intro e issued h
    unfold Crate.ofText at h
    split at h
    next error _ =>
      have herror := (Prod.mk.inj h).1
      exact .inl ⟨error, (Except.error.inj herror).symm⟩
    next t ht => exact .inr ⟨t, ht, stopsWith_of_runFrom (lexable_of_ofText ht) hzero h⟩
  · intro t ht
    have hlexable : t.Lexable := lexable_of_ofText ht
    refine ⟨fun k e issued h => stopsWith_of_runFrom hlexable hzero h, ?_⟩
    intro number pos hoccurs
    cases hoccurs.lexable hlexable with
    | leaf _ number_ok =>
      obtain ⟨numeral, hnumeral⟩ := Numeral.exists_of_isNumber number_ok
      exact ⟨numeral, hnumeral, expectIn_numeral hnumeral pos⟩

/-- The end of a span is too great by one, and is blamed. -/
theorem front_end_faults_span :
    let t := list
      [leaf (.symbol "Span") ⟨1, 1, 2⟩, leaf (.keyword "hi") ⟨6, 1, 7⟩,
        leaf (.number "4294967296") ⟨10, 1, 11⟩] ⟨0, 1, 1⟩
    let e : Fault := .expected "hi in 0..4294967295" "4294967296" ⟨10, 1, 11⟩
    ofText {} "(Span :hi 4294967296)" = .ok t ∧
      (t.build .span).runFrom 0 = (.error e, 0) ∧ t.StopsWith e 0 := by
  intro t e
  have htext : ofText {} "(Span :hi 4294967296)" = .ok t := by decide +kernel
  have hbuild : (t.build .span).runFrom 0 = (.error e, 0) := by rfl
  exact ⟨htext, hbuild, ((front_end_faults {} _).2 t htext).1 .span e 0 hbuild⟩

end Tree

/-! ## Too many digits -/

/-- Nothing follows a computation that fails. -/
theorem Build.runFrom_bind_of_error {α β : Type} {x : Build α} {f : α → Build β} {e : Fault}
    {start stop : Int} (h : x.runFrom start = (.error e, stop)) :
    (x >>= f).runFrom start = (.error e, stop) := by
  rw [runFrom_bind, h]

/-- That there are too many digits is said of no place. -/
theorem Build.eq_of_withoutPlaces_tooManyDigits {α : Type} {outcome : Except Fault α × Int}
    {count : Nat} {stop : Int} (h : withoutPlaces outcome = (.error (.tooManyDigits count), stop)) :
    outcome = (.error (.tooManyDigits count), stop) := by
  rcases outcome with ⟨(error | count' | _ | _) | a, stop'⟩ <;> cases h
  rfl

namespace Tree

/-- A span from a given number on, as it is written. -/
def spanFrom (number : String) : Tree :=
  list [leaf (.symbol "Span") .start, leaf (.keyword "lo") .start, leaf (.number number) .start]
    .start

/-- The beginning of a span is read before anything else. -/
theorem runFrom_build_spanFrom {number : String} {e : Fault}
    (h : (leaf (.number number) .start).expectIn ⟨"lo", 0, maxIndex⟩ = .error e) (start : Int) :
    ((spanFrom number).build .span).runFrom start = (.error e, start) := by
  have hlo : (Build.ofExcept ((leaf (.number number) .start).expectIn
      ⟨"lo", 0, maxIndex⟩)).runFrom start = (.error e, start) := by
    rw [Build.runFrom_ofExcept, h]
  rw [spanFrom, build_list]
  show (Values.read .start ⟨[("lo", _)]⟩ Form.span.fields >>= _ : Build Span).runFrom start = _
  exact Build.runFrom_bind_of_error (Build.runFrom_bind_of_error hlo)

theorem lexable_spanFrom {number : String} (h : IsNumber number.toList) :
    (spanFrom number).Lexable := by
  have hsymbol : (Leaf.symbol "Span").Lexable :=
    ⟨.mk (by decide) (List.all_eq_true.1 (by decide)) (by decide), by decide⟩
  have hkeyword : (Leaf.keyword "lo").Lexable :=
    ⟨by decide, List.all_eq_true.1 (by decide)⟩
  apply Lexable.list
  exact List.forall_mem_cons.2 ⟨.leaf _ hsymbol, List.forall_mem_cons.2 ⟨.leaf _ hkeyword,
    List.forall_mem_singleton.2 (.leaf _ h)⟩⟩

/-- Such a span is printed on one line. -/
theorem render_spanFrom (number : String) :
    (spanFrom number).render {} = "(Span :lo " ++ number ++ ")" := by
  apply String.toList_inj.1
  show ("(" ++ " ".intercalate ["Span", ":lo", number] ++ ")").toList = _
  simp

/-- The front end gives up at a number of 4301 digits, although the number is no bound of a span and
could be blamed for it. -/
theorem front_end_gives_up :
    ∃ t, ofText {} ("(Span :lo " ++ String.ofList (List.replicate 4301 '1') ++ ")") = .ok t ∧
      (t.build .span).runFrom 0 = (.error (.tooManyDigits 4301), 0) := by
  let number := String.ofList (List.replicate 4301 '1')
  have hdigits : IsDigits number.toList := by
    rw [String.toList_ofList]
    refine ⟨List.ne_nil_of_length_pos ?_, ?_⟩
    · rw [List.length_replicate]
      decide
    · intro c hc
      obtain rfl := List.eq_of_mem_replicate hc
      decide
  have hlength : number.toList.length = 4301 := by
    rw [String.toList_ofList, List.length_replicate]
  have hlong : (leaf (.number number) .start).expectIn ⟨"lo", 0, maxIndex⟩ =
      .error (.tooManyDigits 4301) := by
    rw [expectIn_numeral (Numeral.ofText?_of_isDigits hdigits), hlength]
    exact if_pos (by decide)
  obtain ⟨t, ht, -, hstrip⟩ :=
    @ofText_render {} {} (spanFrom number) (lexable_spanFrom (.inl hdigits)) (by decide)
  rw [render_spanFrom] at ht
  refine ⟨t, ht, ?_⟩
  -- Where the number stands makes no difference.
  have hplaces := runFrom_build_stripPositions t .span 0
  rw [hstrip, show (spanFrom number).stripPositions = spanFrom number from rfl,
    runFrom_build_spanFrom hlong] at hplaces
  exact Build.eq_of_withoutPlaces_tooManyDigits hplaces.symm

end Tree

end CrateNotation
