/-
Rendezvous/Gossip/Board.lean

A gossip substrate within one process.

Every node on the board sees the same table of members at once.  Queries can be
made to fail, publishing cannot, except for a node that is not on the board.
-/
import Rendezvous.Error
import Rendezvous.Member

namespace Rendezvous

/-- The members that the nodes of one process share. -/
structure Board where
  members : Table Member := Table.empty
  failing : Bool := false
  deriving DecidableEq, Repr, Inhabited

namespace Board

/-- Add a member without tags, in place of any of its name. -/
def join (b : Board) (name : String) (addr : IpAddr) : Board :=
  { b with members := b.members.insert name ⟨name, addr, .alive, Table.empty⟩ }

def remove (b : Board) (name : String) : Board := { b with members := b.members.erase name }

/-- Change a member that is on the board. -/
def change (b : Board) (name : String) (f : Member → Member) : Except Error Unit × Board :=
  match b.members.get? name with
  | some m => (.ok (), { b with members := b.members.insert name (f m) })
  | none => (.error (.unknownNode name), b)

/-- Replace the tags that a node advertises. -/
def publishTags (b : Board) (name : String) (tags : TagSet) : Except Error Unit × Board :=
  b.change name fun m => { m with tags }

/-- The board on which a node has advertised tags. -/
def publish (b : Board) (name : String) (tags : TagSet) : Except Error Board :=
  let (r, b) := b.publishTags name tags
  r.map fun () => b

/-- The board on which a member has a status. -/
def setStatus (b : Board) (name : String) (status : MemberStatus) : Except Error Board :=
  let (r, b) := b.change name fun m => { m with status }
  r.map fun () => b

def tagsOf (b : Board) (name : String) : Option TagSet := (b.members.get? name).map Member.tags

/-- The members that advertise a tag with a value, by name. -/
def membersWithTag (b : Board) (tag value : String) : Except Error (List Member) :=
  if b.failing then .error (.gossip (.query "local gossip queries disabled"))
  else .ok (b.members.values.filter fun m => m.hasTag tag value)

/-- The alive members that advertise a tag with a value. -/
def responders (b : Board) (tag value : String) : Except Error (List (String × TagSet)) :=
  (b.membersWithTag tag value).map Member.responders

end Board

end Rendezvous
