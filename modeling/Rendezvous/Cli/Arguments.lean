/-
Rendezvous/Cli/Arguments.lean

The command line of the program.

Three commands stand for the three roles.  Each has its flags, and each flag
but two its environment variable.
-/
import Rendezvous.Cli.Usage
import Rendezvous.Settings

namespace Rendezvous.Cli

/-! ### Kinds of values -/

/-- A number below `bound`, at least `least`. -/
def readCount (least bound : Nat) (s : String) : Option Nat :=
  (Text.readNumeral 10 bound s.toList).toOption.filter (least ≤ ·)

/-- A number of attempts; zero may have a minus sign. -/
def readAttempts (s : String) : Option Nat :=
  match s.toList with
  | '-' :: rest =>
    match (Text.readDigits 10 1 0 rest).toOption with
    | some 0 => if rest.isEmpty then none else some 0
    | _ => none
  | _ => readCount 0 (Nat.pow 2 32) s

/-- A value that some reader accepts. -/
def checkedBy {α : Type} (read : String → Option α) (s : String) : Option UsageError :=
  if (read s).isSome then none else some .valueValidation

/-- A path may not be empty. -/
def checkPath (s : String) : Option UsageError :=
  if s.isEmpty then some .invalidValue else none

/-- First number that does not fit in 64 bits. -/
def wordBound : Nat := Nat.pow 2 64

def textFlag (name : String) (var : Option String) (required : Bool) : Flag :=
  { name, envName := var, required }

def pathFlag (name var : String) : Flag :=
  { name, envName := some var, required := true, check := checkPath }

def uuidFlag (name var : String) : Flag :=
  { name, envName := some var, required := true
    check := checkedBy fun s => (Uuid.parse s).toOption }

def countFlag (name var : String) (fallback : Option String) (least : Nat) : Flag :=
  { name, envName := some var, fallback, check := checkedBy (readCount least wordBound) }

/-! ### Flags -/

def gossipNodesFlag : Flag := pathFlag "gossip-nodes" "CTLPLANE_GOSSIP_NODES"

def requestTimeoutFlag : Flag :=
  countFlag "request-timeout-ms" "CTLPLANE_REQUEST_TIMEOUT_MS" (some "10000") 0

/-- Flags of the agent that servers and proxies run. -/
def agentFlags : List Flag :=
  [textFlag "name" (some "CTLPLANE_NODE_NAME") true, gossipNodesFlag,
    countFlag "sync-interval-ms" "CTLPLANE_AGENT_SYNC_INTERVAL_MS" (some "1000") 1,
    countFlag "failure-timeout-ms" "CTLPLANE_FAILURE_TIMEOUT_MS" (some "10000") 0]

def serverLevel : Level :=
  { flags := agentFlags ++
      [uuidFlag "raft-uuid" "CTLPLANE_RAFT_UUID", pathFlag "peer-dir" "CTLPLANE_PEER_DIR",
        uuidFlag "peer-uuid" "CTLPLANE_PEER_UUID", requestTimeoutFlag] }

def proxyLevel : Level :=
  { flags := agentFlags ++
      [pathFlag "proxy-config" "CTLPLANE_PROXY_CONFIG",
        pathFlag "snapshot-dir" "NIOVA_LOCAL_CTL_SVC_DIR",
        countFlag "poll-interval-ms" "CTLPLANE_POLL_INTERVAL_MS" (some "2000") 1,
        countFlag "discovery-timeout-ms" "CTLPLANE_DISCOVERY_TIMEOUT_MS" none 0,
        countFlag "min-agreeing-responders" "CTLPLANE_MIN_AGREEING_RESPONDERS" (some "1") 0,
        countFlag "leader-refresh-interval-ms" "CTLPLANE_LEADER_REFRESH_INTERVAL_MS"
          (some "300") 1,
        countFlag "http-connection-limit" "CTLPLANE_HTTP_CONNECTION_LIMIT" (some "500") 0,
        requestTimeoutFlag] }

def clientLevel : Level :=
  { flags :=
      [gossipNodesFlag,
        countFlag "refresh-interval-ms" "CTLPLANE_REFRESH_INTERVAL_MS" (some "2000") 1,
        { name := "max-attempts", envName := some "CTLPLANE_MAX_ATTEMPTS"
          fallback := some "5", check := checkedBy readAttempts },
        { name := "on-query-error", envName := some "CTLPLANE_ON_QUERY_ERROR"
          fallback := some "terminate"
          check := checkedBy fun s => (QueryErrorPolicy.parse s).toOption },
        requestTimeoutFlag, textFlag "key" none true, textFlag "value" none false] }

/-- What stands before the command. -/
def topLevel : Level :=
  { flags :=
      [{ name := "log-level", envName := some "CTLPLANE_LOG_LEVEL", fallback := some "info" }]
    commands := ["server", "proxy", "client", "help"]
    versioned := true }

/-! ### The whole command line -/

/-- The three commands. -/
inductive Role where
  | server
  | proxy
  | client
  deriving DecidableEq, Repr, Inhabited

/-- The command of a name, with its level. -/
def Role.ofName? (s : String) : Option (Role × Level) :=
  if s = "server" then some (server, serverLevel)
  else if s = "proxy" then some (proxy, proxyLevel)
  else if s = "client" then some (client, clientLevel)
  else none

/-- A command line that has been read. -/
structure Arguments where
  logLevel : String
  role : Role
  values : Table String
  deriving DecidableEq, Repr, Inhabited

/-- The values before the command; a command line without one asks for help. -/
def finishTop (env : Table String) (r : Reading) (command : Bool) :
    Except UsageError (Table String) := do
  let r ← r.settle
  let r ← fromEnvironment env topLevel.flags r
  if command then .ok (withDefaults topLevel.flags r.given)
  else if r.given.size = 0 then .error .helpForMissing
  else .error .missingSubcommand

/-- Read a command line in an environment.  The words after a command are read
before those in front of it are settled. -/
def Arguments.parse (env : Table String) (words : List String) :
    Except UsageError Arguments := do
  let (top, command) ← topLevel.read {} words
  match command.bind fun c => (Role.ofName? c.1).map fun r => (r, c.2) with
  | none =>
    let _ ← finishTop env top false
    .error .missingSubcommand
  | some ((role, level), rest) =>
    let (r, _) ← level.read {} rest
    let values ← level.finish env r
    let above ← finishTop env top true
    .ok ⟨(above.get? "log-level").getD "", role, values⟩

end Rendezvous.Cli
