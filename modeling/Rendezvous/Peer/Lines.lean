/-
Rendezvous/Peer/Lines.lean

Definition files.

A peer file gives the address and the ports of one member, a node file lists
the agents of a cluster one to a line, and a proxy file adds the HTTP port.  In
a peer file the first field of a line says what the last one is; unknown lines
are passed over, and a later line takes the place of an earlier one.
-/
import Rendezvous.Error
import Rendezvous.Peer
import Rendezvous.Text.Blank

namespace Rendezvous

/-! ### Peer files -/

namespace Peer

/-- What the lines of a peer file have said so far. -/
structure Facts where
  ip : Option IpAddr := none
  servicePort : Option UInt16 := none
  clientPort : Option UInt16 := none
  deriving DecidableEq, Repr

/-- Take in what a key says. -/
def Facts.set (f : Facts) (key value : String) : Except Error Facts :=
  if key = "IPADDR" then
    match IpAddr.parse? value with
    | some ip => .ok { f with ip := some ip }
    | none => .error .badIp
  else if key = "PORT" then
    match Text.port? value with
    | some p => .ok { f with servicePort := some p }
    | none => .error (.configuration ("Port " ++ value ++ " is out of range"))
  else if key = "CLIENT_PORT" then
    match Text.port? value with
    | some p => .ok { f with clientPort := some p }
    | none => .error (.configuration ("Client port " ++ value ++ " is out of range"))
  else .ok f

/-- Take in one line; a line of fewer than two fields says nothing. -/
def Facts.line (f : Facts) (line : String) : Except Error Facts :=
  match Text.fields line with
  | key :: value :: more => f.set key ((value :: more).getLast?.getD value)
  | _ => .ok f

/-- The peer that the lines describe. -/
def Facts.peer (id : Uuid) : Facts → Except Error Peer
  | ⟨some ip, some service, some client⟩ => .ok ⟨id, ip, service, client⟩
  | _ =>
    .error (.configuration
      ("Peer " ++ id.text ++ " is missing IPADDR, PORT or CLIENT_PORT"))

/-- Read the text of a peer file; the identifier is not part of it. -/
def ofLines (id : Uuid) (contents : String) : Except Error Peer := do
  let f ← (Text.lines contents).foldlM Facts.line {}
  f.peer id

end Peer

/-! ### Node files -/

/-- One line of a node file. -/
structure NodeEntry where
  name : String
  addr : IpAddr
  agentPort : UInt16
  rpcPort : UInt16
  deriving DecidableEq, Repr, Inhabited

namespace NodeEntry

/-- Where the agent of the node listens. -/
def agentAddr (e : NodeEntry) : SocketAddr := ⟨e.addr, e.agentPort, 0⟩

/-- The entry of four fields. -/
def ofFields (name addr agent rpc : String) : Except Error NodeEntry :=
  match IpAddr.parse? addr with
  | none => .error .badIp
  | some ip =>
    match Text.port? agent with
    | none => .error (.configuration ("Agent port " ++ agent ++ " is out of range"))
    | some agentPort =>
      match Text.port? rpc with
      | none => .error (.configuration ("RPC port " ++ rpc ++ " is out of range"))
      | some rpcPort => .ok ⟨name, ip, agentPort, rpcPort⟩

/-- The entry of one line; fields after the fourth are passed over. -/
def ofLine (line : String) : Except Error NodeEntry :=
  match Text.fields line with
  | name :: addr :: agent :: rpc :: _ => ofFields name addr agent rpc
  | _ => .error (.configuration ("Malformed gossip node line " ++ Text.quoted line))

/-- The entries of a node file, one for each line that is not blank. -/
def ofText (contents : String) : Except Error (List NodeEntry) :=
  ((Text.lines contents).filter fun l => !(Text.fields l).isEmpty).mapM ofLine

/-- The entry of a node, and where the agents of the others listen. -/
def split (entries : List NodeEntry) (name : String) :
    Except Error (NodeEntry × List SocketAddr) :=
  match entries.find? fun e => e.name = name with
  | none => .error (.configuration (name ++ " not listed in gossip node file"))
  | some own =>
    .ok (own, (entries.filter fun e => e.name ≠ name).map agentAddr)

end NodeEntry

/-! ### Proxy files -/

/-- One line of a proxy file. -/
structure ProxyEntry where
  node : NodeEntry
  httpPort : UInt16
  deriving DecidableEq, Repr, Inhabited

namespace ProxyEntry

/-- The entry of a line.  Its first four fields, put together again, are read as a
node file, and the fifth is the port. -/
def ofLine (line : String) : Except Error ProxyEntry :=
  let malformed := Error.configuration ("Malformed proxy config line " ++ Text.quoted line)
  match (Text.fields line).drop 4 with
  | [] => .error malformed
  | http :: _ => do
    let nodes ← NodeEntry.ofText (" ".intercalate ((Text.fields line).take 4))
    match nodes.getLast? with
    | none => .error malformed
    | some node =>
      match Text.port? http with
      | some port => .ok ⟨node, port⟩
      | none => .error (.configuration ("HTTP port " ++ http ++ " is out of range"))

/-- The entry of a proxy, from the first line that starts with its name. -/
def find (contents name : String) : Except Error ProxyEntry :=
  match (Text.lines contents).find? fun l => (Text.fields l).head? = some name with
  | some line => ofLine line
  | none =>
    .error (.configuration ("Agent name " ++ name ++ " not found in proxy config"))

end ProxyEntry

end Rendezvous
