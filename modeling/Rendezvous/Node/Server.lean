/-
Rendezvous/Node/Server.lean

Members of the cluster at their start.

A member reads the definitions of all peers, finds its own among them,
advertises them all, and then serves its state machine at its own client
address.  The peer with the lowest identifier leads.
-/
import Rendezvous.Gossip.Publisher
import Rendezvous.Peer.Directory
import Rendezvous.Service.Member
import Rendezvous.Settings

namespace Rendezvous

/-- How a socket comes to listen at an address: the address it has then. -/
abbrev Listen := SocketAddr → Except Error SocketAddr

/-- A member that serves. -/
structure ServerNode where
  publisher : Publisher
  engineAddr : SocketAddr
  member : ClusterMember

namespace ServerNode

variable {σ : Type}

/-- Read the definitions of the peers, of which there is at least one. -/
def loadPeers (v : Volume) (settings : ServerSettings) : Except Error (List Peer) := do
  let peers ← Peer.readVolume v settings.peerDir
  if peers.isEmpty then
    .error (.configuration ("No peer definitions found in " ++ settings.peerDir))
  else .ok peers

/-- What a member advertises. -/
def advertised (settings : ServerSettings) (peers : List Peer) : Advertised where
  role := .server
  clusterId := some settings.clusterId
  ports := Table.ofList [(Tag.agentPort, settings.agent.bind.port),
    (Tag.rpcPort, settings.agent.rpcPort)]
  peers := peers

/-- Advertise peers; the substrate is left as the publisher leaves it. -/
def advertise (settings : ServerSettings) (peers : List Peer) (send : Send σ) (s : σ) :
    Except Error Publisher × σ :=
  let (r, publisher, s) :=
    Publisher.publish ⟨settings.agent.nodeName, advertised settings peers, none⟩ send s
  (r.map fun _ => publisher, s)

/-- The publisher that has advertised the definitions, and the substrate with them. -/
def publishConfiguration (v : Volume) (settings : ServerSettings) (send : Send σ) (s : σ) :
    Except Error (Publisher × σ) := do
  let peers ← loadPeers v settings
  let (r, s) := advertise settings peers send s
  r.map fun publisher => (publisher, s)

/-- The definition of a member among those of all peers. -/
def ownPeer (settings : ServerSettings) (peers : List Peer) : Except Error Peer :=
  match peers.find? fun p => p.id = settings.peerId with
  | some p => .ok p
  | none => .error (.configuration ("Peer " ++ settings.peerId.text ++ " has no definition in "
      ++ settings.peerDir))

/-- The peer that leads, of peers in ascending order of their identifiers. -/
def leaderOf (own : Peer) (peers : List Peer) : Uuid := (peers.head?.getD own).id

/-- The definitions of all peers, and that of a member among them. -/
def prepare (v : Volume) (settings : ServerSettings) : Except Error (List Peer × Peer) := do
  let peers ← loadPeers v settings
  let own ← ownPeer settings peers
  .ok (peers, own)

/-- Start a member.  Its tags stay when it cannot listen in the end. -/
def start (v : Volume) (settings : ServerSettings) (send : Send σ) (listen : Listen) (s : σ) :
    Except Error ServerNode × σ :=
  match prepare v settings with
  | .error e => (.error e, s)
  | .ok (peers, own) =>
    match advertise settings peers send s with
    | (.error e, s) => (.error e, s)
    | (.ok publisher, s) =>
      ((listen own.clientAddr).map fun addr =>
        ⟨publisher, addr, { id := own.id, leader := leaderOf own peers }⟩, s)

end ServerNode

end Rendezvous
