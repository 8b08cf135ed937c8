/-
Rendezvous/Settings.lean

Settings of the three roles.
-/
import Rendezvous.Tag
import Rendezvous.Uuid
import Rendezvous.Address
import Rendezvous.Text.Elapsed

namespace Rendezvous

/-- What a watcher does when a query for members fails. -/
inductive QueryErrorPolicy where
  | terminate
  | retry
  deriving DecidableEq, Repr, Inhabited

namespace QueryErrorPolicy

def text : QueryErrorPolicy → String
  | terminate => "terminate"
  | retry => "retry"

/-- The policy of a word in any case.  No character outside ASCII has one of
the words' letters as its lower case, so only those letters are lowered. -/
def parse (s : String) : Except String QueryErrorPolicy :=
  let lowered := String.ofList (s.toList.map Char.toLower)
  if lowered = terminate.text then .ok terminate
  else if lowered = retry.text then .ok retry
  else .error ("Invalid query error policy: " ++ s)

end QueryErrorPolicy

/-- Settings of the agent that every node runs. -/
structure AgentSettings where
  nodeName : String
  bind : SocketAddr
  rpcPort : UInt16
  seeds : List SocketAddr
  syncInterval : Elapsed
  failureTimeout : Elapsed
  deriving DecidableEq, Repr, Inhabited

/-- Settings of a member of the replicated cluster. -/
structure ServerSettings where
  agent : AgentSettings
  clusterId : Uuid
  peerDir : String
  peerId : Uuid
  requestTimeout : Elapsed
  deriving DecidableEq, Repr, Inhabited

/-- How a configuration is waited for and chosen. -/
structure ReconcilerSettings where
  role : NodeRole := .server
  pollInterval : Elapsed := .ofMillis 2000
  deadline : Option Elapsed := none
  minAgreeing : Nat := 1
  deriving DecidableEq, Repr, Inhabited

/-- Settings of a front-end proxy. -/
structure ProxySettings where
  agent : AgentSettings
  httpAddr : SocketAddr
  snapshotDir : String
  reconciler : ReconcilerSettings
  leaderRefreshInterval : Elapsed
  connectionLimit : Nat
  requestTimeout : Elapsed
  deriving DecidableEq, Repr, Inhabited

/-- Settings of a client. -/
structure ClientSettings where
  agents : List SocketAddr
  refreshInterval : Elapsed
  maxAttempts : UInt32
  onQueryError : QueryErrorPolicy
  requestTimeout : Elapsed
  deriving DecidableEq, Repr, Inhabited

end Rendezvous
