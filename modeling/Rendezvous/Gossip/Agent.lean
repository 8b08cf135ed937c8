/-
Rendezvous/Gossip/Agent.lean

Agents.

Every node runs an agent.  It keeps a record of its own node and the newest
record it has seen of every other, and exchanges all of them with its seeds and
the members it knows.  Of two records of one node the one with the larger
heartbeat is kept, and with equal heartbeats the one that came first.  An agent
never takes a record of its own node from others.

A member whose record says that it has left has left; one whose heartbeat has
not changed for longer than the failure timeout has failed.
-/
import Rendezvous.Error
import Rendezvous.Http.Exchange
import Rendezvous.Member

namespace Rendezvous

open Http

/-- A record and the time at which it was taken, in nanoseconds. -/
structure Sighting where
  record : MemberRecord
  time : Nat
  deriving DecidableEq, Repr, Inhabited

/-- The agent of a node. -/
structure Agent where
  own : MemberRecord
  seeds : List SocketAddr
  failureTimeout : Elapsed
  members : Table Sighting := Table.empty
  running : Bool := true
  deriving DecidableEq, Repr, Inhabited

namespace Agent

/-- The agent of a node at an address, before its first round. -/
def create (name : String) (addr : SocketAddr) (seeds : List SocketAddr)
    (failureTimeout : Elapsed) : Agent :=
  { own := ⟨name, addr.ip, addr, 0, false, Table.empty⟩, seeds, failureTimeout }

def name (a : Agent) : String := a.own.name

/-! ### Records -/

/-- Whether a record is to be kept in place of what is known. -/
def isNews (a : Agent) (r : MemberRecord) : Bool :=
  r.name ≠ a.name && match a.members.get? r.name with
    | some s => s.record.heartbeat < r.heartbeat
    | none => true

/-- Take in one record. -/
def mergeRecord (time : Nat) (a : Agent) (r : MemberRecord) : Agent :=
  if a.isNews r then { a with members := a.members.insert r.name ⟨r, time⟩ } else a

/-- Take in records from left to right. -/
def merge (time : Nat) (a : Agent) (l : List MemberRecord) : Agent :=
  l.foldl (mergeRecord time) a

/-- The records of the other members. -/
def others (a : Agent) : List MemberRecord := a.members.values.map Sighting.record

/-- All records that an agent has. -/
def records (a : Agent) : List MemberRecord := a.others ++ [a.own]

/-! ### What an agent says of the members -/

/-- The status of a member at a time. -/
def statusAt (a : Agent) (time : Nat) (s : Sighting) : MemberStatus :=
  if s.record.left then .left
  else if a.failureTimeout.nanos < time - s.time then .failed
  else .alive

/-- A member as its record and a status describe it. -/
def memberOf (r : MemberRecord) (status : MemberStatus) : Member :=
  ⟨r.name, r.addr, status, r.tags⟩

def ownMember (a : Agent) : Member := memberOf a.own (if a.own.left then .left else .alive)

/-- All members, the agent's own node among them, by name. -/
def view (a : Agent) (time : Nat) : List Member :=
  Member.sort (a.ownMember :: a.members.values.map fun s => memberOf s.record (a.statusAt time s))

/-- The members that advertise a tag with a value. -/
def membersWithTag (a : Agent) (time : Nat) (tag value : String) : List Member :=
  (a.view time).filter fun m => m.hasTag tag value

/-! ### What a node does -/

/-- Make others see that the own record has changed. -/
def beat (a : Agent) : Agent := { a with own := { a.own with heartbeat := a.own.heartbeat + 1 } }

/-- Advertise tags; an agent does so for its own node only. -/
def publishTags (a : Agent) (node : String) (tags : TagSet) : Except Error Unit × Agent :=
  if node = a.name then (.ok (), { a with own := { a.own with tags } }.beat)
  else (.error (.unknownNode node), a)

/-- The agent that has advertised tags. -/
def publish (a : Agent) (node : String) (tags : TagSet) : Except Error Agent :=
  let (r, a) := a.publishTags node tags
  r.map fun () => a

/-- Say that the node leaves. -/
def markLeft (a : Agent) : Agent := { a with own := { a.own with left := true } }

/-! ### Rounds -/

/-- The addresses with which a round exchanges records. -/
def targets (a : Agent) : List SocketAddr :=
  let known := (a.others.filter fun r => !r.left).map MemberRecord.agentAddr
  (SocketAddr.listing (a.seeds ++ known)).filter (· ≠ a.own.agentAddr)

/-- The JSON form of records. -/
def recordsTree (l : List MemberRecord) : Json.Tree := Json.Tree.ofList (l.map MemberRecord.tree)

def recordsDecoder : Json.Decoder (List MemberRecord) := Json.Decoder.list MemberRecord.decoder

/-- The records that a reply brings. -/
def received (r : Option Reply) : List MemberRecord :=
  match r with
  | some r => if r.isSuccess then (recordsDecoder.decode r.body).toOption.getD [] else []
  | none => []

/-- Send records to addresses and collect what comes back, in their order. -/
def exchangeAll {σ : Type} (net : Exchange σ) (outgoing : List MemberRecord) :
    List SocketAddr → σ → List (List MemberRecord) × σ
  | [], s => ([], s)
  | addr :: rest, s =>
    let (r, s) := net addr (.withJson Request.post Path.sync (recordsTree outgoing)) s
    let (more, s) := exchangeAll net outgoing rest s
    (received r :: more, s)

/-- One round: beat, send all records to every target, and take in the
answers. -/
def round {σ : Type} (net : Exchange σ) (time : Nat) (a : Agent) (s : σ) : Agent × σ :=
  let a := a.beat
  let (answers, s) := exchangeAll net a.records a.targets s
  (answers.foldl (merge time) a, s)

/-- Leave: say so in one last round and stop. -/
def leave {σ : Type} (net : Exchange σ) (time : Nat) (a : Agent) (s : σ) : Agent × σ :=
  let (a, s) := a.markLeft.round net time s
  ({ a with running := false }, s)

end Agent

end Rendezvous
