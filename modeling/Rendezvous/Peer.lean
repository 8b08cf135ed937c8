/-
Rendezvous/Peer.lean

Members of a replicated cluster and where they are reached.
-/
import Rendezvous.Address
import Rendezvous.Uuid

namespace Rendezvous

/-- The connection facts of one cluster member. -/
structure Peer where
  id : Uuid
  ip : IpAddr
  servicePort : UInt16
  clientPort : UInt16
  deriving DecidableEq, Repr, Inhabited

namespace Peer

/-- Where the member serves its clients. -/
def clientAddr (p : Peer) : SocketAddr := ⟨p.ip, p.clientPort, 0⟩

/-- Peers in ascending order of their identifiers; those with one identifier
keep their order. -/
def sort (l : List Peer) : List Peer := l.mergeSort fun a b => a.id.le b.id

end Peer

end Rendezvous
