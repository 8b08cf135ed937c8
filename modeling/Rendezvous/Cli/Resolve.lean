/-
Rendezvous/Cli/Resolve.lean

From arguments to settings.

The node file and the proxy file named by the arguments tell where the agents
are.  They are looked at in a fixed order, and the first fault found in them
is the one reported.
-/
import Rendezvous.Cli.Arguments
import Rendezvous.Peer.Lines
import Rendezvous.Volume

namespace Rendezvous.Cli

/-- What reading a file gives, by its path. -/
abbrev Files := String → Except FileFault String

namespace Arguments

/-! ### Values of flags -/

def text (a : Arguments) (name : String) : String := (a.values.get? name).getD ""

def count (a : Arguments) (name : String) : Nat := (readAttempts (a.text name)).getD
  ((readCount 0 wordBound (a.text name)).getD 0)

def millis (a : Arguments) (name : String) : Elapsed := .ofMillis (a.count name)

def id (a : Arguments) (name : String) : Uuid := (Uuid.parse (a.text name)).toOption.getD .nil

/-! ### Files -/

/-- The text of the file that a flag names. -/
def contents (a : Arguments) (files : Files) (name : String) : Except Error String :=
  let path := a.text name
  match files path with
  | .ok s => .ok s
  | .error f => .error (.configuration ("Cannot read " ++ path ++ ": " ++ f.message))

/-- The entries of the node file. -/
def nodes (a : Arguments) (files : Files) : Except Error (List NodeEntry) := do
  let s ← a.contents files "gossip-nodes"
  NodeEntry.ofText s

/-! ### Settings -/

/-- Settings of the agent of a node. -/
def agentSettings (a : Arguments) (own : NodeEntry) (seeds : List SocketAddr) : AgentSettings :=
  { nodeName := a.text "name", bind := own.agentAddr, rpcPort := own.rpcPort, seeds
    syncInterval := a.millis "sync-interval-ms"
    failureTimeout := a.millis "failure-timeout-ms" }

def serverSettings (a : Arguments) (files : Files) : Except Error ServerSettings := do
  let entries ← a.nodes files
  let (own, seeds) ← NodeEntry.split entries (a.text "name")
  .ok { agent := a.agentSettings own seeds, clusterId := a.id "raft-uuid"
        peerDir := a.text "peer-dir", peerId := a.id "peer-uuid"
        requestTimeout := a.millis "request-timeout-ms" }

def proxySettings (a : Arguments) (files : Files) : Except Error ProxySettings := do
  let s ← a.contents files "proxy-config"
  let own ← ProxyEntry.find s (a.text "name")
  let entries ← a.nodes files
  let seeds := (entries.filter fun e => e.name ≠ a.text "name").map NodeEntry.agentAddr
  let deadline := (a.values.get? "discovery-timeout-ms").map fun _ =>
    a.millis "discovery-timeout-ms"
  .ok { agent := a.agentSettings own.node seeds, httpAddr := ⟨own.node.addr, own.httpPort, 0⟩
        snapshotDir := a.text "snapshot-dir"
        reconciler :=
          { role := .server, pollInterval := a.millis "poll-interval-ms", deadline
            minAgreeing := max 1 (a.count "min-agreeing-responders") }
        leaderRefreshInterval := a.millis "leader-refresh-interval-ms"
        connectionLimit := a.count "http-connection-limit"
        requestTimeout := a.millis "request-timeout-ms" }

def clientSettings (a : Arguments) (files : Files) : Except Error ClientSettings := do
  let entries ← a.nodes files
  if entries.isEmpty then
    .error (.configuration ("No gossip agents listed in " ++ a.text "gossip-nodes"))
  else
    .ok { agents := entries.map NodeEntry.agentAddr
          refreshInterval := a.millis "refresh-interval-ms"
          maxAttempts := UInt32.ofNat (a.count "max-attempts")
          onQueryError :=
            (QueryErrorPolicy.parse (a.text "on-query-error")).toOption.getD .terminate
          requestTimeout := a.millis "request-timeout-ms" }

end Arguments

end Rendezvous.Cli
