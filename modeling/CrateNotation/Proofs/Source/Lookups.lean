import CrateNotation.Proofs.Source.Lines

/-!
# Lookups in any order

A locator is asked for one index after the other, and carries its mark from each lookup to the next.
The indices need not rise, and may lie past the end of the text.  Since the bytes that it carries
along are always those before its mark, no answer depends on what was asked before: each is what the
text alone says about the index.

One lookup keeps what is known of a locator; many lookups are an induction on the list of them.

## Main Definitions

* `Lookup`, `Lookup.Answer` — what a locator can be asked about an index, and what it answers
* `Locator.answers` — the answers to lookups one after the other
* `Lookup.answerIn` — what a text says without a locator

## Main Statements

* `Locator.answers_ofText` — a locator answers as the text alone does
-/

namespace CrateNotation

/-- What a locator can be asked about an index. -/
inductive Lookup where
  /-- The number of bytes before the index. -/
  | byteOffset (index : Nat)
  /-- The position of the index. -/
  | position (index : Nat)

namespace Lookup

/-- What a lookup is answered with. -/
inductive Answer where
  | offset (bytes : Nat)
  | position (pos : Position)
deriving DecidableEq

/-- What a text says about an index. Its position counts the bytes before it and the line feeds
before it. Its column is counted from just past the last of these line feeds, or from the beginning
of the text, and goes on past the end. -/
def answerIn (text : List Char) : Lookup → Answer
  | byteOffset i => .offset (utf8Length (text.take i))
  | position i =>
    let before := text.take i
    .position ⟨utf8Length before, 1 + before.count '\n', i - Position.lastLineStart before + 1⟩

end Lookup

namespace Locator

/-- The answer to a lookup, and the locator to ask next. -/
def answer (l : Locator) : Lookup → Lookup.Answer × Locator
  | .byteOffset i =>
    let (bytes, next) := l.byteOffset i
    (.offset bytes, next)
  | .position i =>
    let (pos, next) := l.position i
    (.position pos, next)

/-- The answers to lookups one after the other. -/
def answers : Locator → List Lookup → List Lookup.Answer
  | _, [] => []
  | l, lookup :: lookups =>
    let (first, next) := l.answer lookup
    first :: next.answers lookups

variable {text : List Char} {l : Locator}

/-- One lookup is answered from the text, and leaves what is known of the locator. -/
theorem Follows.answer_eq (h : l.Follows text) (lookup : Lookup) :
    (l.answer lookup).1 = lookup.answerIn text ∧ (l.answer lookup).2.Follows text := by
  cases lookup with
  | byteOffset i =>
    obtain ⟨hbytes, hnext⟩ := h.byteOffset_eq i
    exact ⟨congrArg Lookup.Answer.offset hbytes, hnext⟩
  | position i =>
    obtain ⟨hpos, hnext⟩ := h.position_eq i
    exact ⟨congrArg Lookup.Answer.position hpos, hnext⟩

/-- So are many. -/
theorem Follows.answers_eq (h : l.Follows text) (lookups : List Lookup) :
    l.answers lookups = lookups.map (Lookup.answerIn text) := by
  induction lookups generalizing l with
  | nil => rfl
  | cons lookup lookups ih =>
    obtain ⟨hfirst, hnext⟩ := h.answer_eq lookup
    rw [List.map_cons, ← hfirst, ← ih hnext]
    rfl

/-- A locator answers every lookup as the text alone does, whatever it was asked before. -/
theorem answers_ofText (text : List Char) (lookups : List Lookup) :
    (ofText text).answers lookups = lookups.map (Lookup.answerIn text) :=
  (follows_ofText text).answers_eq lookups

/-- A lookup past the end of a text, and then others before it. -/
example :
    (ofText ['a', 'é', '\n', 'b']).answers [.position 9, .byteOffset 2, .position 2, .position 3] =
      [.position ⟨5, 2, 7⟩, .offset 3, .position ⟨3, 1, 3⟩, .position ⟨4, 2, 1⟩] := by
  decide +kernel

end Locator

end CrateNotation
