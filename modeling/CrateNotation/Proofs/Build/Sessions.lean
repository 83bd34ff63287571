import CrateNotation.Proofs.Build.Numbering
import CrateNotation.Proofs.Build.Script

/-!
# Sessions that serve many requests

A session is asked to build one node after another, or asked for an id as such.  Some of the builds
fail, and some of them when they have been handed out ids.  What the session has issued is a single
number all the time, so the ids handed out to its requests follow each other without a gap.

A request is known by the script that it follows.  One request is an application of what is known of
a script; many requests are an induction on the list of them.

## Main Definitions

* `Request` — what is asked of a session
* `Request.issuedAfter`, `Request.handedOut` — the number of ids that a session has issued, and these
  ids
* `Tree.automaticIds` — the ids in a node that no list has written
* `Request.Served` — what is known of a session

## Main Statements

* `Request.exists_handedOutFrom` — the ids of a session
* `Request.session_served` — no session hands out an id twice
-/

namespace CrateNotation

/-- What is asked of a session. -/
inductive Request where
  /-- The node of a kind that a tree is written for. -/
  | build (t : Tree) (k : NodeKind)
  /-- An id. -/
  | nextId

/-- The ids of the numbered nodes in a node that a tree is written for, as far as the tree has not
written them. -/
def Tree.automaticIds (t : Tree) (k : NodeKind) (value : k.Value) : List NodeId :=
  (((k.outline value).labels.zip (t.outline k).labels).filter (·.2.isNone)).map (·.1)

namespace Request

/-- What a request is answered with. -/
@[reducible]
def Answer : Request → Type
  | build _ k => k.Value
  | nextId => NodeId

/-- What a session does for a request. -/
def run : (r : Request) → Build r.Answer
  | build t k => t.build k
  | nextId => Build.nextId

/-- The automatic ids in an answer. -/
def automaticIds : (r : Request) → r.Answer → List NodeId
  | build t k, value => t.automaticIds k value
  | nextId, id => [id]

/-- The number of ids that a session has issued after it has served requests, some of which may have
failed. It had issued `start` of them before. -/
def issuedFrom (start : Int) (requests : List Request) : Int :=
  requests.foldl (fun issued r => (r.run.runFrom issued).2) start

/-- The ids that are handed out to requests, where `script` gives the script that each follows. -/
def handedOutFrom (script : (r : Request) → Script r.Answer) : Int → List Request → List NodeId
  | _, [] => []
  | start, r :: requests =>
    (script r).handedOut start ++ handedOutFrom script (r.run.runFrom start).2 requests

/-- The number of ids that a new session has issued after it has served requests. -/
def issuedAfter (requests : List Request) : Int :=
  issuedFrom 0 requests

/-- The ids that a new session hands out to requests. -/
def handedOut (script : (r : Request) → Script r.Answer) (requests : List Request) : List NodeId :=
  handedOutFrom script 0 requests

/-- What is known of a new session that has served requests, where `script` gives the script that
each request follows. -/
structure Served (script : (r : Request) → Script r.Answer) (requests : List Request) : Prop where
  /-- The number of ids issued is that of the ids handed out. -/
  counted : issuedAfter requests = (handedOut script requests).length
  /-- They are handed out in order, from zero. -/
  in_order : handedOut script requests =
    (List.range (handedOut script requests).length).map fun i : Nat => ⟨i⟩
  /-- None of them is handed out twice. -/
  distinct : (handedOut script requests).Nodup
  /-- They are all less than the dummy. -/
  bounded : ∀ id ∈ handedOut script requests, id.value < maxIndex
  /-- The number of ids issued has not decreased on the way. -/
  grown : ∀ before after, requests = before ++ after → issuedAfter before ≤ issuedAfter requests
  /-- The automatic ids in an answer are those that were handed out to its request. -/
  answered : ∀ before r after, requests = before ++ r :: after →
    ∀ answer, (r.run.runFrom (issuedAfter before)).1 = .ok answer →
      r.automaticIds answer = (script r).handedOut (issuedAfter before)
  /-- No two answers have an automatic id in common. -/
  apart : ∀ before r between r' after, requests = before ++ r :: (between ++ r' :: after) →
    ∀ answer, (r.run.runFrom (issuedAfter before)).1 = .ok answer →
    ∀ answer', (r'.run.runFrom (issuedAfter (before ++ r :: between))).1 = .ok answer' →
      (r.automaticIds answer).Disjoint (r'.automaticIds answer')
  /-- When all ids have been issued, a request that asks for one fails, and the number stays. -/
  exhausted : issuedAfter requests = maxIndex → ∀ r : Request,
    r.run.runFrom (issuedAfter requests) = ((script r).unserved, issuedAfter requests)
  /-- An id as such is not to be had then either. -/
  refused : issuedAfter requests = maxIndex →
    nextId.run.runFrom (issuedAfter requests) = (.error .idsExhausted, issuedAfter requests)

/-! ## Requests follow scripts -/

theorem isScripted_run (r : Request) : r.run.IsScripted := by
  cases r with
  | build t k => exact t.isScripted_build k
  | nextId => exact Build.isScripted_nextId

section Session

variable {script : (r : Request) → Script r.Answer}

/-- The ids that one request is handed out. -/
theorem exists_handedOut_script (hscript : ∀ r, (script r).toBuild = r.run) (r : Request)
    {start : Int} (hstart : start ≤ maxIndex) :
    ∃ n : Nat, (r.run.runFrom start).2 = start + n ∧
      (script r).handedOut start = NodeId.row start n ∧ start + n ≤ maxIndex := by
  rw [← hscript r]
  exact (script r).exists_handedOut hstart

/-- The ids that many requests are handed out. -/
theorem exists_handedOutFrom (hscript : ∀ r, (script r).toBuild = r.run) (requests : List Request)
    {start : Int} (hstart : start ≤ maxIndex) :
    ∃ n : Nat, issuedFrom start requests = start + n ∧
      handedOutFrom script start requests = NodeId.row start n ∧ start + n ≤ maxIndex := by
  induction requests generalizing start with
  | nil =>
    have hzero : start + (0 : Nat) = start := Int.add_zero start
    exact ⟨0, hzero.symm, rfl, Int.le_trans (Int.le_of_eq hzero) hstart⟩
  | cons r requests ih =>
    obtain ⟨m, hmid, hids, hle⟩ := exists_handedOut_script hscript r hstart
    obtain ⟨n, hstop, hmore, hbound⟩ := ih hle
    have hsum : start + (m + n : Nat) = start + m + n := by
      rw [Int.natCast_add, Int.add_assoc]
    refine ⟨m + n, ?_, ?_, ?_⟩
    · rw [hsum, ← hstop, ← hmid]
      rfl
    · rw [handedOutFrom, hids, hmid, hmore, NodeId.row_add]
    · rw [hsum]
      exact hbound

theorem issuedAfter_append (before after : List Request) :
    issuedAfter (before ++ after) = issuedFrom (issuedAfter before) after :=
  List.foldl_append

/-- A request that is served after others starts with the ids that these have left. -/
theorem issuedAfter_append_cons (before after : List Request) (r : Request) :
    issuedAfter (before ++ r :: after) =
      issuedFrom (r.run.runFrom (issuedAfter before)).2 after :=
  issuedAfter_append before (r :: after)

/-- A session never issues more ids than there are. -/
theorem issuedAfter_le (requests : List Request) : issuedAfter requests ≤ maxIndex := by
  choose script hscript using isScripted_run
  have hzero : (0 : Int) ≤ maxIndex := by decide
  obtain ⟨n, hstop, -, hle⟩ := exists_handedOutFrom hscript requests hzero
  rw [Int.zero_add] at hstop hle
  exact Int.le_trans (Int.le_of_eq hstop) hle

/-- The number of ids issued never decreases. -/
theorem issuedAfter_le_append (before after : List Request) :
    issuedAfter before ≤ issuedAfter (before ++ after) := by
  choose script hscript using isScripted_run
  obtain ⟨n, hstop, -⟩ := exists_handedOutFrom hscript after (issuedAfter_le before)
  rw [issuedAfter_append, hstop]
  exact Int.le_add_of_nonneg_right (Int.natCast_nonneg n)

/-- The automatic ids in a node are those that its build was handed out. -/
theorem automaticIds_build {t : Tree} {k : NodeKind} {value : k.Value} {start stop : Int}
    (h : (t.build k).runFrom start = (.ok value, stop)) :
    ∃ n : Nat, stop = start + n ∧ t.automaticIds k value = NodeId.row start n := by
  obtain ⟨marks, hids, hwritten, hissued⟩ := Tree.numbers_build t k start value stop h
  obtain ⟨n, hstop, hautomatic⟩ := hissued.automatic_eq
  refine ⟨n, hstop, ?_⟩
  rw [Tree.automaticIds, ← hids, ← hwritten, Forest.labels_map, Forest.labels_map, List.zip_map',
    List.filter_map, List.map_map]
  exact hautomatic

/-- The automatic ids in an answer are those that its request was handed out. -/
theorem automaticIds_eq_handedOut (hscript : ∀ r, (script r).toBuild = r.run) {r : Request}
    {start : Int} (hstart : start ≤ maxIndex) {answer : r.Answer}
    (h : (r.run.runFrom start).1 = .ok answer) :
    r.automaticIds answer = (script r).handedOut start := by
  obtain ⟨n, hstop, hids, -⟩ := exists_handedOut_script hscript r hstart
  have hrun : r.run.runFrom start = (.ok answer, start + n) := Prod.ext h hstop
  rw [hids]
  cases r with
  | build t k =>
    obtain ⟨m, hcount, hautomatic⟩ := automaticIds_build hrun
    obtain rfl : n = m := Int.ofNat_inj.1 (Int.add_left_cancel hcount)
    exact hautomatic
  | nextId =>
    obtain ⟨-, rfl, hcount⟩ := Build.runFrom_nextId_eq_ok_iff.1 hrun
    obtain rfl : n = 1 := Int.ofNat_inj.1 (Int.add_left_cancel hcount)
    exact (NodeId.row_succ start 0).symm

/-- What is handed out to a request is not handed out to a later one. -/
theorem handedOut_disjoint (hscript : ∀ r, (script r).toBuild = r.run)
    (before between : List Request) (r r' : Request) :
    ((script r).handedOut (issuedAfter before)).Disjoint
      ((script r').handedOut (issuedAfter (before ++ r :: between))) := by
  obtain ⟨m, hmid, hids, hle⟩ :=
    exists_handedOut_script hscript r (issuedAfter_le before)
  obtain ⟨n, hlater, -⟩ := exists_handedOutFrom hscript between hle
  obtain ⟨m', -, hids', -⟩ :=
    exists_handedOut_script hscript r' (issuedAfter_le (before ++ r :: between))
  rw [issuedAfter_append_cons, hmid, hlater] at hids' ⊢
  rw [hids, hids']
  intro id hid hid'
  have hlow := (NodeId.mem_row_iff.1 hid).2
  have hhigh := (NodeId.mem_row_iff.1 hid').1
  omega

end Session

/-- No session hands out an id twice, whatever it is asked for and whatever fails.  All that a
request does with the session is to follow a script, that is, to ask for the next id again and again.
The ids handed out in answer are counted by the session and are `0`, `1`, `2` and so on, in this
order and all less than the dummy; those drawn by builds that failed later are among them.  The
automatic ids in a node are those that were handed out to its build, so they are in no other node.
When all ids have been issued, every further request for one fails and leaves the session as it is. -/
theorem session_served :
    (∃ script : (r : Request) → Script r.Answer, ∀ r, (script r).toBuild = r.run) ∧
    ∀ script : (r : Request) → Script r.Answer, (∀ r, (script r).toBuild = r.run) →
      ∀ requests : List Request, Served script requests := by
  refine ⟨Classical.skolem.1 isScripted_run, ?_⟩
  intro script hscript requests
  have hzero : (0 : Int) ≤ maxIndex := by decide
  obtain ⟨n, hstop, hids, hle⟩ := exists_handedOutFrom hscript requests hzero
  have hids : handedOut script requests = NodeId.row 0 n := hids
  have hlength : (handedOut script requests).length = n := by
    rw [hids, NodeId.length_row]
  rw [Int.zero_add] at hstop hle
  constructor
  case counted =>
    rw [hlength]
    exact hstop
  case in_order =>
    rw [hlength, hids, NodeId.row]
    simp only [Int.zero_add]
  case distinct =>
    rw [hids]
    exact NodeId.nodup_row 0 n
  case bounded =>
    intro id hid
    rw [hids] at hid
    have hlt := (NodeId.mem_row_iff.1 hid).2
    rw [Int.zero_add] at hlt
    exact Int.lt_of_lt_of_le hlt hle
  case grown =>
    rintro before after rfl
    exact issuedAfter_le_append before after
  case answered =>
    intro before r after _ answer hanswer
    exact automaticIds_eq_handedOut hscript (issuedAfter_le before) hanswer
  case apart =>
    intro before r between r' after _ answer hanswer answer' hanswer'
    rw [automaticIds_eq_handedOut hscript (issuedAfter_le _) hanswer,
      automaticIds_eq_handedOut hscript (issuedAfter_le _) hanswer']
    exact handedOut_disjoint hscript before between r r'
  case exhausted =>
    intro hfull r
    rw [hfull, ← hscript r]
    exact (script r).runFrom_of_maxIndex_le (Int.le_refl maxIndex)
  case refused =>
    intro hfull
    rw [hfull]
    exact Build.runFrom_nextId maxIndex

/-- A session is asked for an id, then for a block whose second statement is none, and then for an id
again. The first statement of the block has drawn an id, which is not issued again. -/
theorem session_served_failure :
    let symbol := fun text => Tree.leaf (.symbol text) .start
    let keyword := fun name => Tree.leaf (.keyword name) .start
    let first := Tree.list [symbol "Stmt", keyword "kind", .list [symbol "Empty"] .start] .start
    let second := Tree.leaf .nil ⟨9, 1, 10⟩
    let block := Tree.list [symbol "Block", keyword "stmts", .list [first, second] .start] .start
    let requests := [nextId, build block .block, nextId]
    ((build block .block).run.runFrom 1).1 = .error (.expected "list" "nil" ⟨9, 1, 10⟩) ∧
    issuedAfter requests = 3 ∧
    ∃ script : (r : Request) → Script r.Answer, (∀ r, (script r).toBuild = r.run) ∧
      Served script requests ∧ handedOut script requests = [⟨0⟩, ⟨1⟩, ⟨2⟩] := by
  intro symbol keyword first second block requests
  have hissued : issuedAfter requests = 3 := by rfl
  refine ⟨by rfl, hissued, ?_⟩
  obtain ⟨⟨script, hscript⟩, hserved⟩ := session_served
  have hsession : Served script requests := hserved script hscript requests
  refine ⟨script, hscript, hsession, ?_⟩
  have hlength : (handedOut script requests).length = 3 :=
    Int.ofNat_inj.1 (hsession.counted.symm.trans hissued)
  rw [hsession.in_order, hlength]
  rfl

end Request

end CrateNotation
