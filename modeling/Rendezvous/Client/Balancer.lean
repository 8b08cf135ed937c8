/-
Rendezvous/Client/Balancer.lean

Attempts at one request.

A request is tried against one candidate after another, at least once and at
most as often as allowed.  Each failure is recorded before the next draw.  When
the pool runs empty in the middle of a request its last candidate is tried
again.

The state of the rest of the world goes through every attempt together with
the pool, so an attempt may find both changed by others.
-/
import Rendezvous.Client.Pool
import Rendezvous.Error

namespace Rendezvous.Balancer

variable {σ α : Type}

/-- One attempt against an address. -/
abbrev Attempt (σ α : Type) := SocketAddr → Pool × σ → Except Error α × (Pool × σ)

/-- What a request has come to, with the number of draws made. -/
structure Outcome (σ α : Type) where
  result : Except Error α
  pool : Pool
  state : σ
  draws : Nat

/-- The number of attempts that a setting allows. -/
def allowed (maxAttempts : UInt32) : UInt32 := if maxAttempts = 0 then 1 else maxAttempts

/-- Make the attempts that are left; `last` is the candidate of the one before
and how it failed. -/
def attempts (d : Draws) (op : Attempt σ α) (total : UInt32) : (left : Nat) → (used : Nat) →
    (last : Option (Candidate × Error)) → Pool → σ → Outcome σ α
  | 0, used, last, p, s =>
    match last with
    | some (_, e) => ⟨.error (.retriesExhausted total e), p, s, used⟩
    | none => ⟨.error .poolExhausted, p, s, used⟩
  | left + 1, used, last, p, s =>
    let pick := Pool.pickFrom d used p
    match pick.candidate.or (last.map Prod.fst) with
    | none => ⟨.error .poolExhausted, pick.pool, s, pick.draws⟩
    | some c =>
      match op c.addr (pick.pool, s) with
      | (.ok a, (p, s)) => ⟨.ok a, p, s, pick.draws⟩
      | (.error e, (p, s)) =>
        attempts d op total left pick.draws (some (c, e)) (p.recordFailure c) s

/-- Carry out a request. -/
def execute (d : Draws) (op : Attempt σ α) (maxAttempts : UInt32) (used : Nat) (p : Pool) (s : σ) :
    Outcome σ α :=
  attempts d op (allowed maxAttempts) (allowed maxAttempts).toNat used none p s

end Rendezvous.Balancer
