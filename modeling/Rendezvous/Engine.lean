/-
Rendezvous/Engine.lean

Handles on the replicated cluster.

A handle takes the bytes of writes and reads and knows who leads.  The state of
what it reaches goes through every call.  The local handle stands for a cluster
of one machine with a fixed leader.
-/
import Rendezvous.Kv.Store

namespace Rendezvous

/-- How long a call keeps its caller waiting. -/
inductive Pace where
  | atOnce
  | soon
  | after (e : Elapsed)
  | never
  deriving DecidableEq, Repr, Inhabited

namespace Pace

/-- Whether a caller has to wait at all. -/
def waits : Pace → Bool
  | atOnce => false
  | after e => 0 < e.nanos
  | soon | never => true

/-- Whether a caller who waits no longer than a limit gives up. -/
def exceeds (limit : Elapsed) : Pace → Bool
  | atOnce => false
  | soon => limit.nanos = 0
  | after e => limit.wait.nanos < e.wait.nanos
  | never => true

end Pace

/-- A handle on the cluster. -/
structure Engine (σ : Type) where
  write : List UInt8 → σ → Except Error Unit × σ
  read : List UInt8 → σ → Except Error (List UInt8) × σ
  leader : σ → Except Error Uuid × σ
  pace : Pace := .soon

namespace Engine

/-- The cluster of one machine. -/
def alone (leader : Uuid) : Engine Kv.Store where
  write bytes s :=
    match s.apply bytes with
    | .ok s' => (.ok (), s')
    | .error e => (.error e, s)
  read bytes s := (s.read bytes, s)
  leader s := (.ok leader, s)

end Engine

end Rendezvous
