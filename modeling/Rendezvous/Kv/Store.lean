/-
Rendezvous/Kv/Store.lean

The key-value state machine.

The state is a map from keys to values.  A write puts its value under its key,
whatever its identifier; a read changes nothing.  A request that cannot be
read changes nothing either.
-/
import Rendezvous.Kv.Message

namespace Rendezvous.Kv

/-- The state of the machine. -/
abbrev Store := Table (List UInt8)

namespace Store

/-- Carry out a decoded write. -/
def put (s : Store) (r : Request) : Store := s.insert r.key r.value

/-- The reply to a decoded read. -/
def reply (s : Store) (r : Request) : Response :=
  match s.get? r.key with
  | some value => .ok value
  | none => .err "key not found"

/-- Carry out the write of some bytes. -/
def apply (s : Store) (bytes : List UInt8) : Except Error Store :=
  (Request.decode bytes).map s.put

/-- Answer the read of some bytes. -/
def read (s : Store) (bytes : List UInt8) : Except Error (List UInt8) :=
  (Request.decode bytes).map fun r => (s.reply r).encode

end Store

end Rendezvous.Kv
