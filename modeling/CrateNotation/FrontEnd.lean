import CrateNotation.Build.Node
import CrateNotation.Tree.Reader

/-!
# From a text to a crate

The front end reads the first tree of a text and builds a crate from it in a session of its own.
On its way it reports *events*: how far it came, and what it passed over.  They are reported for
texts with faults as well, up to the fault.

## Main Definitions

* `Event`, `Event.message` — what is reported
* `Crate.ofText` — the crate of a text
* `Crate.report` — the crate of a text with the events on the way
-/

namespace CrateNotation

/-- What the front end reports. -/
inductive Event where
  /-- A text of so many characters made so many tokens. -/
  | tokenized (characters tokens : Nat)
  /-- From `pos` on the text is not read. -/
  | trailingIgnored (pos : Position)
  /-- A crate was built, and ids were issued to so many nodes. -/
  | crateBuilt (id : NodeId) (items : Nat) (issued : Int)
deriving DecidableEq

/-- The wording of an event. -/
def Event.message : Event → String
  | tokenized characters tokens => s!"tokenized {characters} characters into {tokens} tokens"
  | trailingIgnored pos => s!"ignoring trailing input starting at {pos.describe}"
  | crateBuilt id items issued =>
    s!"built crate {id.value} with {items} items ({issued} ids issued)"

namespace Crate

/-- The crate that a text is written for, and the number of ids issued to its nodes. -/
def ofText (options : ReadOptions) (text : String) : Except Fault Crate × Int :=
  match Tree.ofText options text with
  | .error e => (.error (.invalid e), 0)
  | .ok tree => (tree.build .crate).runFrom 0

/-- What is reported when a text makes the given tokens. -/
def lexEvents (text : String) : Except LexError (List Token) → List Event
  | .error _ => []
  | .ok tokens => [.tokenized text.length tokens.length]

/-- What is reported when the first tree of a text is read and the given tokens are left. -/
def readEvents : Tree.Outcome Tree → List Event
  | (.ok _, t :: _) => if t.isEnd then [] else [.trailingIgnored t.pos]
  | _ => []

/-- What is reported when building comes to the given outcome. -/
def buildEvents : Except Fault Crate × Int → List Event
  | (.ok crate, issued) => [.crateBuilt crate.id crate.items.length issued]
  | (.error _, _) => []

/-- The crate that a text is written for, with the events on the way to it. -/
def report (options : ReadOptions) (text : String) : Except Fault Crate × List Event :=
  let lexed := Token.ofText text
  match lexed with
  | .error e => (.error (.invalid (.lexical e)), lexEvents text lexed)
  | .ok tokens =>
    let outcome := Tree.readFirst options tokens
    let before := lexEvents text lexed ++ readEvents outcome
    match outcome.1 with
    | .error e => (.error (.invalid e), before)
    | .ok tree =>
      let built := (tree.build .crate).runFrom 0
      (built.1, before ++ buildEvents built)

/-- Reporting does not change what is built. -/
theorem report_fst (options : ReadOptions) (text : String) :
    (report options text).1 = (ofText options text).1 := by
  unfold report ofText Tree.ofText
  cases Token.ofText text with
  | error e => rfl
  | ok tokens =>
    dsimp only
    cases (Tree.readFirst options tokens).1 <;> rfl

end Crate

end CrateNotation
