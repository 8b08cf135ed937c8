/-
Rendezvous/Http/About.lean

What a proxy says about itself.
-/
import Rendezvous.Snapshot

namespace Rendezvous.Http

open Json

/-- Name of the program. -/
def programName : String := "ctlplane"

/-- Version of the program. -/
def programVersion : String := "0.1.0"

/-- Facts about the program, the proxy that answers and its cluster. -/
structure About where
  name : String
  version : String
  node : String
  clusterId : Uuid
  peers : Nat
  deriving DecidableEq, Repr

namespace About

/-- The facts of a proxy with a snapshot. -/
def ofSnapshot (node : String) (s : Snapshot) : About :=
  ⟨programName, programVersion, node, s.clusterId, s.peers.length⟩

def tree (a : About) : Tree :=
  Tree.ofFields [("name", Tree.ofString a.name), ("version", Tree.ofString a.version),
    ("node", Tree.ofString a.node), ("cluster_id", Tree.ofString a.clusterId.text),
    ("peers", Tree.ofNat a.peers)]

def countDecoder : Decoder Nat := Decoder.nat (Nat.pow 2 64)

def fields : Decoder.Fields :=
  [Decoder.field "name" Decoder.string, Decoder.field "version" Decoder.string,
    Decoder.field "node" Decoder.string, Decoder.field "cluster_id" Uuid.decoder,
    Decoder.field "peers" countDecoder]

def decoder : Decoder About := fun t => do
  let l ← Decoder.record fields t
  let name ← Decoder.required l "name" Decoder.string
  let version ← Decoder.required l "version" Decoder.string
  let node ← Decoder.required l "node" Decoder.string
  let clusterId ← Decoder.required l "cluster_id" Uuid.decoder
  let peers ← Decoder.required l "peers" countDecoder
  .ok ⟨name, version, node, clusterId, peers⟩

end About

end Rendezvous.Http
