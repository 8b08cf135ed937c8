/-
Rendezvous/Node/Proxy.lean

Proxies at their start and afterwards.

A proxy learns the configuration of the cluster, puts it on disk, listens, and
only then advertises itself; a stage that fails ends the start.  Afterwards it
asks the engine for the leader again and again and advertises each new one.
-/
import Rendezvous.Gossip.Publisher
import Rendezvous.Node.Server
import Rendezvous.Service.Proxy
import Rendezvous.Settings
import Rendezvous.Snapshot.Files

namespace Rendezvous

/-- A proxy that serves. -/
structure ProxyNode where
  httpAddr : SocketAddr
  frontEnd : FrontEnd
  publisher : Publisher
  deriving DecidableEq, Repr, Inhabited

namespace ProxyNode

variable {σ : Type}

/-! ### The start -/

/-- What a proxy that listens at an address advertises. -/
def advertised (settings : ProxySettings) (httpAddr : SocketAddr) : Advertised where
  role := .proxy
  ports := Table.ofList [(Tag.httpPort, httpAddr.port),
    (Tag.agentPort, settings.agent.bind.port), (Tag.rpcPort, settings.agent.rpcPort)]

/-- Listen and advertise, once the configuration is known. -/
def enter (settings : ProxySettings) (snapshot : Snapshot) (listen : Listen) (send : Send σ)
    (s : σ) : Except Error ProxyNode × σ :=
  match listen settings.httpAddr with
  | .error e => (.error e, s)
  | .ok httpAddr =>
    let node := settings.agent.nodeName
    let (r, publisher, s) :=
      Publisher.publish ⟨node, advertised settings httpAddr, none⟩ send s
    (r.map fun _ => ⟨httpAddr, ⟨node, snapshot⟩, publisher⟩, s)

/-- Start a proxy with the outcome of its reconciliation. -/
def start (settings : ProxySettings) (reconciled : Except Error Snapshot) (listen : Listen)
    (send : Send σ) (v : Volume) (s : σ) : Except Error ProxyNode × Volume × σ :=
  match reconciled with
  | .error e => (.error e, v, s)
  | .ok snapshot =>
    match snapshot.writeTo v settings.snapshotDir with
    | (v, .error e) => (.error e, v, s)
    | (v, .ok _) =>
      let (r, s) := enter settings snapshot listen send s
      (r, v, s)

/-! ### The leader -/

/-- One look at the leader: advertise it if it is known and new.  A failure to
do so is passed over. -/
def followLeader (p : Publisher) (leader : Except Error Uuid) (send : Send σ) (s : σ) :
    Publisher.Desk σ :=
  match leader with
  | .error _ => (p, s)
  | .ok id => (p.setDynamic Tag.leader id.text send s).2

end ProxyNode

end Rendezvous
