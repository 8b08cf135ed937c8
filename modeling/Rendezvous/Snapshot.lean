/-
Rendezvous/Snapshot.lean

What a proxy has learned about its cluster.

A snapshot names the cluster and lists its peers in ascending order of their
identifiers.  Its texts are those of the files from which the client library
learns the cluster: a descriptor that lists the members, and one file for each.
-/
import Rendezvous.Peer.Json
import Rendezvous.Timestamp

namespace Rendezvous

/-- The reconciled configuration of a cluster. -/
structure Snapshot where
  clusterId : Uuid
  peers : List Peer
  reconciledAt : Timestamp
  deriving DecidableEq, Repr, Inhabited

namespace Snapshot

/-- The snapshot of peers in any order. -/
def ofPeers (clusterId : Uuid) (peers : List Peer) (moment : Timestamp) : Snapshot :=
  ⟨clusterId, Peer.sort peers, moment⟩

/-- The first peer with an identifier. -/
def peer? (s : Snapshot) (id : Uuid) : Option Peer := s.peers.find? fun p => p.id = id

/-- The peers by the text of their identifiers. -/
def peerMap (s : Snapshot) : Table Peer := Table.ofList (s.peers.map fun p => (p.id.text, p))

/-- The text of the descriptor. -/
def descriptor (s : Snapshot) : String :=
  "RAFT " ++ s.clusterId.text ++ "\n"
    ++ String.join (s.peers.map fun p => "PEER " ++ p.id.text ++ "\n")

/-- The text of the file of a peer. -/
def peerFile (s : Snapshot) (p : Peer) : String :=
  "RAFT         " ++ s.clusterId.text ++ "\nIPADDR       " ++ p.ip.text
    ++ "\nPORT         " ++ Text.decimal p.servicePort.toNat
    ++ "\nCLIENT_PORT  " ++ Text.decimal p.clientPort.toNat
    ++ "\nSTORE        ./*.raftdb\n"

/-! ### JSON -/

open Json

def tree (s : Snapshot) : Tree :=
  Tree.ofFields [("cluster_id", Tree.ofString s.clusterId.text),
    ("peers", Tree.ofList (s.peers.map Peer.tree)),
    ("reconciled_at", Tree.ofString s.reconciledAt.text)]

def momentDecoder : Decoder Timestamp := Decoder.stringOf Timestamp.parse?

def fields : Decoder.Fields :=
  [Decoder.field "cluster_id" Uuid.decoder, Decoder.field "peers" (Decoder.list Peer.decoder),
    Decoder.field "reconciled_at" momentDecoder]

/-- A snapshot out of its JSON form; the peers keep their order. -/
def decoder : Decoder Snapshot := fun t => do
  let l ← Decoder.record fields t
  let clusterId ← Decoder.required l "cluster_id" Uuid.decoder
  let peers ← Decoder.required l "peers" (Decoder.list Peer.decoder)
  let moment ← Decoder.required l "reconciled_at" momentDecoder
  .ok ⟨clusterId, peers, moment⟩

end Snapshot

end Rendezvous
