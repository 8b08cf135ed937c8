/-
Rendezvous/Cli/Report.lean

What a command line comes to.

The settings that a command line resolves to, as JSON, with lengths of time in
milliseconds; or a sentence for what is wrong with it.
-/
import Rendezvous.Cli.Resolve
import Rendezvous.Json.Tree

namespace Rendezvous

open Json

/-! ### Settings -/

def Elapsed.tree (e : Elapsed) : Tree := Tree.ofNat (e.nanos / 1000000)

def addrsTree (l : List SocketAddr) : Tree := Tree.ofList (l.map fun a => Tree.ofString a.text)

def AgentSettings.tree (s : AgentSettings) : Tree :=
  Tree.ofFields [("node_name", Tree.ofString s.nodeName), ("bind", Tree.ofString s.bind.text),
    ("rpc_port", Tree.ofNat s.rpcPort.toNat), ("seeds", addrsTree s.seeds),
    ("sync_interval_ms", s.syncInterval.tree), ("failure_timeout_ms", s.failureTimeout.tree)]

def ServerSettings.tree (s : ServerSettings) : Tree :=
  Tree.ofFields [("role", Tree.ofString "server"), ("agent", s.agent.tree),
    ("raft_uuid", Tree.ofString s.clusterId.text), ("peer_dir", Tree.ofString s.peerDir),
    ("peer_uuid", Tree.ofString s.peerId.text), ("request_timeout_ms", s.requestTimeout.tree)]

def ProxySettings.tree (s : ProxySettings) : Tree :=
  Tree.ofFields [("role", Tree.ofString "proxy"), ("agent", s.agent.tree),
    ("http_addr", Tree.ofString s.httpAddr.text), ("snapshot_dir", Tree.ofString s.snapshotDir),
    ("reconciler_role", Tree.ofString s.reconciler.role.text),
    ("poll_interval_ms", s.reconciler.pollInterval.tree),
    ("deadline_ms", (s.reconciler.deadline.map Elapsed.tree).getD .null),
    ("min_agreeing_responders", Tree.ofNat s.reconciler.minAgreeing),
    ("leader_refresh_interval_ms", s.leaderRefreshInterval.tree),
    ("http_connection_limit", Tree.ofNat s.connectionLimit),
    ("request_timeout_ms", s.requestTimeout.tree)]

def ClientSettings.tree (s : ClientSettings) : Tree :=
  Tree.ofFields [("role", Tree.ofString "client"), ("agents", addrsTree s.agents),
    ("refresh_interval_ms", s.refreshInterval.tree),
    ("max_attempts", Tree.ofNat s.maxAttempts.toNat),
    ("on_query_error", Tree.ofString s.onQueryError.text),
    ("request_timeout_ms", s.requestTimeout.tree)]

namespace Cli

/-- The settings of a command line. -/
def Arguments.report (a : Arguments) (files : Files) : Except Error Tree :=
  match a.role with
  | .server => (a.serverSettings files).map ServerSettings.tree
  | .proxy => (a.proxySettings files).map ProxySettings.tree
  | .client => (a.clientSettings files).map ClientSettings.tree

/-- The files that a command line names. -/
def Arguments.fileNames (a : Arguments) : List String :=
  ["gossip-nodes", "proxy-config"].filterMap a.values.get?

/-- The variables that stand in for flags. -/
def environmentNames : List String :=
  [topLevel, serverLevel, proxyLevel, clientLevel].flatMap fun l => l.flags.filterMap Flag.envName

/-! ### Faults -/

/-- What is wrong with a command line, in a sentence. -/
def UsageError.sentence : UsageError → String
  | help => "usage: ctlplane [--log-level LEVEL] (server | proxy | client) FLAGS"
  | version => "ctlplane 0.1.0"
  | helpForMissing => "a command is required: server, proxy or client"
  | missingSubcommand => "a command is required after the flags"
  | invalidSubcommand => "there is no such command"
  | missingRequired => "a required flag is missing"
  | unknownArgument => "there is no such flag"
  | invalidValue => "a flag lacks its value"
  | valueValidation => "the value of a flag cannot be used"
  | conflict => "a flag is given twice"
  | tooManyValues => "a flag that takes no value is given one"

/-- Whether a command line asked for what it is told. -/
def UsageError.isAnswer : UsageError → Bool
  | help | version => true
  | _ => false

end Cli

end Rendezvous
