/-
Rendezvous/Peer/Json.lean

Peers as JSON.
-/
import Rendezvous.Json.Decoder
import Rendezvous.Peer

namespace Rendezvous

open Json

/-- Identifiers are strings in any of their text forms. -/
def Uuid.decoder : Decoder Uuid := Decoder.stringOf fun s => (Uuid.parse s).toOption

/-- Addresses are strings. -/
def IpAddr.decoder : Decoder IpAddr := Decoder.stringOf IpAddr.parse?

def SocketAddr.decoder : Decoder SocketAddr := Decoder.stringOf SocketAddr.parse?

/-- Ports and other words are numbers. -/
def portDecoder : Decoder UInt16 := fun t => (Decoder.nat 65536 t).map UInt16.ofNat

namespace Peer

/-- The JSON form of a peer. -/
def tree (p : Peer) : Tree :=
  Tree.ofFields [("id", Tree.ofString p.id.text), ("ip", Tree.ofString p.ip.text),
    ("service_port", Tree.ofNat p.servicePort.toNat),
    ("client_port", Tree.ofNat p.clientPort.toNat)]

def fields : Decoder.Fields :=
  [Decoder.field "id" Uuid.decoder, Decoder.field "ip" IpAddr.decoder,
    Decoder.field "service_port" portDecoder, Decoder.field "client_port" portDecoder]

/-- A peer out of its JSON form. -/
def decoder : Decoder Peer := fun t => do
  let l ← Decoder.record fields t
  let id ← Decoder.required l "id" Uuid.decoder
  let ip ← Decoder.required l "ip" IpAddr.decoder
  let servicePort ← Decoder.required l "service_port" portDecoder
  let clientPort ← Decoder.required l "client_port" portDecoder
  .ok ⟨id, ip, servicePort, clientPort⟩

end Peer

end Rendezvous
