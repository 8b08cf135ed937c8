/-
Rendezvous/Gossip/Reconciler.lean

From advertised tags back to the configuration of a cluster.

A proxy asks for the nodes of a role until enough of them agree.  Responders
agree if they advertise one checksum and one cluster; a group whose first
member, by name, carries a wrong checksum does not count while another's is
right.  The largest group wins, of equals the one with the lowest name, and its
first member speaks for it.

Its tag set is then unsealed and its peer records expanded.  A wrong checksum
or cluster fails the attempt, a record that cannot be read is passed over.
-/
import Rendezvous.Peer.Compact
import Rendezvous.Seal
import Rendezvous.Settings
import Rendezvous.Snapshot

namespace Rendezvous.Reconciler

/-! ### States -/

/-- How far reconciliation has come. -/
inductive State where
  | waiting
  | validating
  | expanding
  | ready
  | failed
  deriving DecidableEq, Repr, Inhabited

/-! ### The vote -/

/-- A node that has answered, with its tags. -/
abbrev Responder := String × TagSet

/-- What responders must have in common to agree. -/
def ballot (r : Responder) : Option String × Option String :=
  (r.2.get? Tag.checksum, r.2.get? Tag.cluster)

/-- Responders by name. -/
def sortResponders (l : List Responder) : List Responder :=
  l.mergeSort fun a b => decide (a.1 ≤ b.1)

/-- The responders of a list that agree with one. -/
def agreeing (r : Responder) (l : List Responder) : List Responder :=
  l.filter fun q => ballot q = ballot r

/-- The responders of a list that do not agree with one. -/
def dissenting (r : Responder) (l : List Responder) : List Responder :=
  l.filter fun q => ballot q ≠ ballot r

/-- Leaving responders out makes no list longer. -/
theorem dissenting_length (r : Responder) (l : List Responder) :
    (dissenting r l).length ≤ l.length :=
  List.length_filter_le ..

/-- Responders in groups that agree, each in the order of the list, and the
groups in the order of their first members. -/
def groups : List Responder → List (List Responder)
  | [] => []
  | r :: rest => (r :: agreeing r rest) :: groups (dissenting r rest)
  termination_by l => l.length
  decreasing_by exact Nat.lt_succ_of_le (dissenting_length r rest)

/-- Whether the tags of the first member of a group carry the right checksum. -/
def isSound (g : List Responder) : Bool :=
  match g with
  | [] => false
  | r :: _ => (TagSet.unsealed r.2).toBool

/-- The groups that count. -/
def candidates (l : List (List Responder)) : List (List Responder) :=
  let sound := l.filter isSound
  if sound.isEmpty then l else sound

/-- The first of the largest lists. -/
def largest : List (List Responder) → Option (List Responder)
  | [] => none
  | g :: rest =>
    match largest rest with
    | some h => if g.length < h.length then some h else some g
    | none => some g

/-- The responder that speaks for the others, if at least `quorum` agree. -/
def choose (quorum : Nat) (responders : List Responder) : Option Responder :=
  match largest (candidates (groups (sortResponders responders))) with
  | some (r :: rest) => if rest.length + 1 < quorum then none else some r
  | _ => none

/-! ### Expansion -/

/-- The peers among the entries of a tag set. -/
def peersOf (entries : List (String × String)) : List Peer :=
  entries.filterMap fun e =>
    if Peer.isCompactId e.1 then (Peer.expand e.2 e.1).toOption else none

/-- The cluster that a tag names, if there is one. -/
def clusterOf (value : Option String) : Except Error Uuid :=
  match value with
  | none => .error (.configuration "Advertised configuration has no cluster id")
  | some s => (Uuid.parse s).mapError Error.badUuid

/-- What comes of an attempt, and the states it goes through. -/
structure Attempt where
  states : List State
  result : Except Error Snapshot

/-- Validate and expand entries at a moment, in whichever order they come. -/
def reconcileEntries (entries : List (String × String)) (moment : Timestamp) : Attempt :=
  let verified := do
    let rest ← TagSet.unsealedEntries entries
    let id ← clusterOf (rest.lookup Tag.cluster)
    .ok (rest, id)
  match verified with
  | .error e => ⟨[.validating, .failed], .error e⟩
  | .ok (rest, id) =>
    ⟨[.validating, .expanding, .ready], .ok (.ofPeers id (peersOf rest) moment)⟩

/-- Validate and expand a tag set at a moment. -/
def reconcile (tags : TagSet) (moment : Timestamp) : Attempt :=
  reconcileEntries tags.toList moment

/-! ### Waiting -/

/-- A query for responders; a failure counts as no answer. -/
abbrev Query := Except Error (List Responder)

/-- The responder that a query yields. -/
def poll (s : ReconcilerSettings) (q : Query) : Option Responder :=
  match q with
  | .ok l => choose s.minAgreeing l
  | .error _ => none

/-- A reconciliation that waits: when it started, up to when it is waited for,
when it asks next, and when and how it ended.  One that is not waited for any
longer ends without an outcome.  Times are in nanoseconds. -/
structure Run where
  settings : ReconcilerSettings
  started : Nat
  limit : Nat
  next : Nat
  state : State := .waiting
  ended : Option Nat := none
  outcome : Option (Except Error Snapshot) := none

namespace Run

/-- A run that starts at a time, and asks at once. -/
def start (settings : ReconcilerSettings) (time : Nat) (limit : Elapsed) : Run :=
  { settings, started := time, limit := time + limit.nanos, next := time }

/-- How long a run takes at most. -/
def longest (settings : ReconcilerSettings) (limit : Elapsed) : Elapsed :=
  match settings.deadline with
  | some d => ⟨min d.nanos limit.nanos⟩
  | none => limit

/-- When the run does something next, if it has not ended. -/
def due (r : Run) : Option Nat :=
  if r.ended.isSome then none
  else match r.settings.deadline with
    | some d => some (min r.next (min r.limit (r.started + d.nanos)))
    | none => some (min r.next r.limit)

/-- Whether a run asks again before any time passes. -/
def isBusy (r : Run) (now : Nat) : Bool := r.ended.isNone && decide (r.next ≤ now)

/-- Ask once. -/
def ask (r : Run) (q : Query) (moment : Timestamp) (now : Nat) : Run :=
  match poll r.settings q with
  | none => { r with next := now + r.settings.pollInterval.wait.nanos }
  | some (_, tags) =>
    let a := reconcile tags moment
    { r with state := a.states.getLast?.getD r.state, ended := some now, outcome := some a.result }

/-- End at the deadline, or else at the limit, if the time has come. -/
def giveUp (r : Run) (now : Nat) : Run :=
  let late := r.settings.deadline.filter fun d => r.started + d.nanos ≤ now
  match late with
  | some d =>
    { r with state := .failed, ended := some now, outcome := some (.error (.discoveryTimedOut d)) }
  | none => if r.limit ≤ now then { r with ended := some now } else r

/-- What the run does at a time: it asks if it is due, and only when that is of
no avail does the deadline count. -/
def proceed (r : Run) (q : Query) (moment : Timestamp) (now : Nat) : Run :=
  if r.ended.isSome then r
  else
    let r := if r.next ≤ now then r.ask q moment now else r
    if r.ended.isSome then r else r.giveUp now

end Run

end Rendezvous.Reconciler
