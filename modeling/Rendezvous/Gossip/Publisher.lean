/-
Rendezvous/Gossip/Publisher.lean

What a node advertises.

The tags of a node are made from its configuration: one for each peer, one for
each port and for each value that changes at run time, the role, the cluster,
and the checksum over them all.  Where two of these have one name the later in
this order stands: peers, role, cluster, ports, changing values, checksum.

A publisher owns the configuration.  A change is published if it makes another
tag set than the last one published; a change that does not is not kept.  What a
call comes to stands beside the publisher and the substrate as it leaves them, be
it a success or a failure.
-/
import Rendezvous.Peer.Compact
import Rendezvous.Seal

namespace Rendezvous

/-- Everything a node advertises. -/
structure Advertised where
  role : NodeRole
  clusterId : Option Uuid := none
  ports : Table UInt16 := Table.empty
  peers : List Peer := []
  dynamic : Table String := Table.empty
  deriving DecidableEq, Repr, Inhabited

namespace Advertised

/-! ### Tags of a configuration -/

/-- Put the record of a peer under its compact identifier. -/
def insertPeer (tags : TagSet) (p : Peer) : Except Error TagSet := do
  let (key, body) ← Peer.splitCompact p.compact
  .ok (tags.insert key body)

/-- Put in the records of peers, whose identifiers must differ. -/
def insertPeers (seen : List Uuid) (tags : TagSet) : List Peer → Except Error TagSet
  | [] => .ok tags
  | p :: rest =>
    if p.id ∈ seen then
      .error (.configuration ("Duplicate peer id " ++ p.id.text ++ " in advertised config"))
    else do
      let tags ← insertPeer tags p
      insertPeers (p.id :: seen) tags rest

/-- The tags of a configuration, without the checksum. -/
def tags (a : Advertised) : Except Error TagSet := do
  let t ← insertPeers [] Table.empty a.peers
  let t := t.insert Tag.role a.role.text
  let t := match a.clusterId with
    | some id => t.insert Tag.cluster id.text
    | none => t
  let t := t.insertAll (a.ports.toList.map fun e => (e.1, Text.decimal e.2.toNat))
  .ok (t.insertAll a.dynamic.toList)

/-- The sealed tags of a configuration. -/
def build (a : Advertised) : Except Error TagSet := a.tags.map TagSet.sealed

end Advertised

/-! ### Publishers -/

/-- The owner of what a node advertises. -/
structure Publisher where
  node : String
  config : Advertised
  lastPublished : Option TagSet := none
  deriving DecidableEq, Repr, Inhabited

/-- How tags reach a substrate in some state: whether they are taken, and the
state that this leaves. -/
abbrev Send (σ : Type) := TagSet → σ → Except Error Unit × σ

namespace Publisher

/-- A publisher, and the substrate under it. -/
abbrev Desk (σ : Type) := Publisher × σ

variable {σ : Type}

/-- Publish the configuration as it is. -/
def publish (p : Publisher) (send : Send σ) (s : σ) : Except Error TagSet × Desk σ :=
  match p.config.build with
  | .error e => (.error e, p, s)
  | .ok tags =>
    match send tags s with
    | (.error e, s) => (.error e, p, s)
    | (.ok (), s) => (.ok tags, { p with lastPublished := some tags }, s)

/-- Change the configuration and publish it if that makes a difference. -/
def update (p : Publisher) (change : Advertised → Advertised) (send : Send σ) (s : σ) :
    Except Error Bool × Desk σ :=
  -- the change is made to a copy, which is kept once the substrate has its tags
  let config := change p.config
  match config.build with
  | .error e => (.error e, p, s)
  | .ok tags =>
    if p.lastPublished = some tags then (.ok false, p, s)
    else
      match send tags s with
      | (.error e, s) => (.error e, p, s)
      | (.ok (), s) => (.ok true, { p with config, lastPublished := some tags }, s)

/-- Set one value that changes at run time. -/
def setDynamic (p : Publisher) (tag value : String) (send : Send σ) (s : σ) :
    Except Error Bool × Desk σ :=
  p.update (fun a => { a with dynamic := a.dynamic.insert tag value }) send s

end Publisher

end Rendezvous
