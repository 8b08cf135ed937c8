/-
Rendezvous/Error.lean

What can go wrong, by cause.

Every operation of the library that can fail fails with one of these causes.
The wording of a cause, the name of its kind, the HTTP status it answers with
and the chain of causes behind it are functions of the cause alone.

`Io` and `Serialization` faults come from outside the library's own rules; of
them only a description is kept.
-/
import Rendezvous.Address
import Rendezvous.Text.Elapsed
import Rendezvous.Text.Quoted
import Rendezvous.Uuid

namespace Rendezvous

/-- What can go wrong on the gossip substrate. -/
inductive GossipError where
  | query (message : String)
  | publish (message : String)
  | unknownNode (name : String)
  deriving DecidableEq, Repr

/-- Why a tag set is not trusted. -/
inductive IntegrityError where
  | missingChecksum
  | malformedChecksum (value : String)
  | mismatch (advertised computed : UInt32)
  deriving DecidableEq, Repr

/-- What can go wrong in the control plane. -/
inductive Error where
  | configuration (message : String)
  | gossip (cause : GossipError)
  | integrity (cause : IntegrityError)
  | codec (message : String)
  | discoveryTimedOut (after : Elapsed)
  | poolExhausted
  | retriesExhausted (attempts : UInt32) (last : Error)
  | transport (addr : SocketAddr) (reason : String)
  | engine (message : String)
  | io (description : String)
  | serialization (description : String)
  | concurrency (message : String)
  deriving DecidableEq, Repr

instance : Inhabited Error := ⟨.poolExhausted⟩

/-! ### Wording -/

def GossipError.message : GossipError → String
  | query m => "Query: " ++ m
  | publish m => "Publish: " ++ m
  | unknownNode n => "Unknown node: " ++ n

/-- A word as eight hexadecimal digits after `0x`. -/
def wordText (w : UInt32) : String := String.ofList ("0x".toList ++ Text.hexPadded 8 w.toNat)

def IntegrityError.message : IntegrityError → String
  | missingChecksum => "checksum tag missing"
  | malformedChecksum v => "malformed checksum value " ++ Text.quoted v
  | mismatch a c =>
    "checksum mismatch (advertised " ++ wordText a ++ ", computed " ++ wordText c ++ ")"

namespace Error

/-- The wording of a cause. -/
def message : Error → String
  | configuration m => "Configuration error: " ++ m
  | gossip c => "Gossip error: " ++ c.message
  | integrity c => "Integrity error: " ++ c.message
  | codec m => "Codec error: " ++ m
  | discoveryTimedOut e => "Discovery timed out after " ++ e.text
  | poolExhausted => "No reachable address remains in the pool"
  | retriesExhausted n last =>
    "Gave up after " ++ toString n.toNat ++ " attempts, last error: " ++ last.message
  | transport a r => "Transport error (" ++ a.text ++ "): " ++ r
  | engine m => "Engine error: " ++ m
  | io d => "I/O error: " ++ d
  | serialization d => "Serialization error: " ++ d
  | concurrency m => "Concurrency error: " ++ m

/-! ### Kind and status -/

/-- The name of a cause's kind. -/
def kind : Error → String
  | configuration _ => "configuration_error"
  | gossip _ => "gossip_error"
  | integrity _ => "integrity_error"
  | codec _ => "codec_error"
  | discoveryTimedOut _ => "discovery_timed_out"
  | poolExhausted => "pool_exhausted"
  | retriesExhausted .. => "retries_exhausted"
  | transport .. => "transport_error"
  | engine _ => "engine_error"
  | io _ => "io_error"
  | serialization _ => "serialization_error"
  | concurrency _ => "concurrency_error"

/-- The HTTP status with which a cause is answered. -/
def status : Error → Nat
  | configuration _ | serialization _ => 400
  | gossip _ | discoveryTimedOut _ | poolExhausted | engine _ => 503
  | retriesExhausted .. | transport .. => 502
  | integrity _ | codec _ | io _ | concurrency _ => 500

/-! ### Causes behind a cause -/

/-- Wordings of the causes behind a cause, the nearest first. -/
def sources : Error → List String
  | gossip c => [c.message]
  | integrity c => [c.message]
  | retriesExhausted _ last => last.message :: last.sources
  | io d => [d]
  | serialization d => [d]
  | _ => []

/-! ### Common causes -/

/-- A text that is no Internet address. -/
def badIp : Error := configuration "invalid address: invalid IP address syntax"

/-- A text that is no address of a socket. -/
def badSocket : Error := configuration "invalid address: invalid socket address syntax"

/-- A text that is no number. -/
def badNumeral (e : Text.NumeralError) : Error :=
  configuration ("invalid number: " ++ e.message)

/-- A text that is no identifier. -/
def badUuid (f : Uuid.Fault) : Error := codec ("invalid uuid: " ++ f.message)

/-- A node that is not on the gossip substrate. -/
def unknownNode (name : String) : Error := gossip (.unknownNode name)

end Error

end Rendezvous
