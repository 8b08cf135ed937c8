/-
Rendezvous/Member.lean

Members of the gossip substrate.

A member is what others see of a node: a name, an address, whether it is
alive, and the tags it advertises.  A record is what agents exchange about it;
its heartbeat counts the changes of the node, so of two records the one with
the larger heartbeat is the newer.  On the wire a heartbeat has 64 bits.
-/
import Rendezvous.Peer.Json
import Rendezvous.Tag

namespace Rendezvous

open Json

/-! ### Members -/

/-- Whether a member is alive. -/
inductive MemberStatus where
  | alive
  | failed
  | left
  deriving DecidableEq, Repr, Inhabited

namespace MemberStatus

def text : MemberStatus → String
  | alive => "alive"
  | failed => "failed"
  | left => "left"

/-- The status of a name. -/
def ofText? (s : String) : Option MemberStatus :=
  [alive, failed, left].find? fun m => m.text = s

end MemberStatus

/-- A member as others see it. -/
structure Member where
  name : String
  addr : IpAddr
  status : MemberStatus
  tags : TagSet
  deriving DecidableEq, Repr, Inhabited

def TagSet.tree (t : TagSet) : Tree :=
  Tree.ofFields (t.toList.map fun e => (e.1, Tree.ofString e.2))

def TagSet.decoder : Decoder TagSet := Decoder.table Decoder.string

namespace Member

/-- Whether a member advertises a tag with a value. -/
def hasTag (m : Member) (tag value : String) : Bool := m.tags.get? tag = some value

/-- Members in ascending order of their names. -/
def sort (l : List Member) : List Member := l.mergeSort fun a b => decide (a.name ≤ b.name)

def tree (m : Member) : Tree :=
  Tree.ofFields [("name", Tree.ofString m.name), ("addr", Tree.ofString m.addr.text),
    ("status", Tree.ofString m.status.text), ("tags", TagSet.tree m.tags)]

def fields : Decoder.Fields :=
  [Decoder.field "name" Decoder.string, Decoder.field "addr" IpAddr.decoder,
    Decoder.field "status" (Decoder.name MemberStatus.ofText?),
    Decoder.field "tags" TagSet.decoder]

def decoder : Decoder Member := fun t => do
  let l ← Decoder.record fields t
  let name ← Decoder.required l "name" Decoder.string
  let addr ← Decoder.required l "addr" IpAddr.decoder
  let status ← Decoder.required l "status" (Decoder.name MemberStatus.ofText?)
  let tags ← Decoder.required l "tags" TagSet.decoder
  .ok ⟨name, addr, status, tags⟩

/-- The alive members among some, with the tags of each. -/
def responders (l : List Member) : List (String × TagSet) :=
  (l.filter fun m => m.status = .alive).map fun m => (m.name, m.tags)

end Member

/-! ### Records -/

/-- What agents exchange about a member. -/
structure MemberRecord where
  name : String
  addr : IpAddr
  agentAddr : SocketAddr
  heartbeat : Nat
  left : Bool
  tags : TagSet
  deriving DecidableEq, Repr, Inhabited

namespace MemberRecord

def tree (r : MemberRecord) : Tree :=
  Tree.ofFields [("name", Tree.ofString r.name), ("addr", Tree.ofString r.addr.text),
    ("agent_addr", Tree.ofString r.agentAddr.text),
    ("heartbeat", Tree.ofNat r.heartbeat), ("left", .bool r.left),
    ("tags", TagSet.tree r.tags)]

def heartbeatDecoder : Decoder Nat := Decoder.nat (Nat.pow 2 64)

def fields : Decoder.Fields :=
  [Decoder.field "name" Decoder.string, Decoder.field "addr" IpAddr.decoder,
    Decoder.field "agent_addr" SocketAddr.decoder, Decoder.field "heartbeat" heartbeatDecoder,
    Decoder.field "left" Decoder.bool, Decoder.field "tags" TagSet.decoder]

def decoder : Decoder MemberRecord := fun t => do
  let l ← Decoder.record fields t
  let name ← Decoder.required l "name" Decoder.string
  let addr ← Decoder.required l "addr" IpAddr.decoder
  let agentAddr ← Decoder.required l "agent_addr" SocketAddr.decoder
  let heartbeat ← Decoder.required l "heartbeat" heartbeatDecoder
  let left ← Decoder.required l "left" Decoder.bool
  let tags ← Decoder.required l "tags" TagSet.decoder
  .ok ⟨name, addr, agentAddr, heartbeat, left, tags⟩

end MemberRecord

/-! ### Roles -/

namespace NodeRole

/-- The name of a role in JSON. -/
def name : NodeRole → String
  | server => "PmdbServer"
  | proxy => "Proxy"

def decoder : Decoder NodeRole :=
  Decoder.name fun s => [server, proxy].find? fun r => r.name = s

end NodeRole

end Rendezvous
