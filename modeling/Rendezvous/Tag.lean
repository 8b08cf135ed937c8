/-
Rendezvous/Tag.lean

Tag sets, the vocabulary of the gossip substrate.

A node tells the others about itself by a set of named tags.  A few names are
well known; every other name belongs to whoever chose it, except that names in
the shape of a compact identifier carry peer records.
-/
import Rendezvous.Table

namespace Rendezvous

/-- The tags of one node. -/
abbrev TagSet := Table String

namespace Tag

/-- Role marker. -/
def role : String := "Type"

/-- Checksum over every other tag. -/
def checksum : String := "CS"

/-- Identifier of the cluster. -/
def cluster : String := "RU"

/-- Port for agents. -/
def agentPort : String := "Aport"

/-- Port for member queries. -/
def rpcPort : String := "Rport"

/-- Port of a front end. -/
def httpPort : String := "Hport"

/-- Leader of the cluster, as a proxy sees it. -/
def leader : String := "Leader UUID"

end Tag

/-! ### Roles -/

/-- What kind of node a tag set belongs to. -/
inductive NodeRole where
  | server
  | proxy
  deriving DecidableEq, Repr, Inhabited

namespace NodeRole

/-- The value of the role marker. -/
def text : NodeRole → String
  | server => "PMDB_SERVER"
  | proxy => "PROXY"

/-- The role of a marker, or why there is none. -/
def parse (s : String) : Except String NodeRole :=
  if s = server.text then .ok server
  else if s = proxy.text then .ok proxy
  else .error ("Invalid node role: " ++ s)

end NodeRole

end Rendezvous
