/-
Rendezvous/Client/Pool.lean

The addresses that a client may turn to.

A pool holds one generation of candidates.  A refresh replaces the whole
generation; a candidate that is drawn although it has failed is taken out, and
what is left is a new generation.  Failures are recorded against a candidate
of one refresh, so they are forgotten when the next one lists its address
again.

Draws are random; a stream of numbers stands for them, each taken modulo the
number of candidates.
-/
import Rendezvous.Address

namespace Rendezvous

/-- An address as one refresh has listed it. -/
structure Candidate where
  refresh : Nat
  addr : SocketAddr
  deriving DecidableEq, Repr, Inhabited

/-- One view of the pool. -/
structure Generation where
  id : Nat
  candidates : List Candidate
  deriving DecidableEq, Repr, Inhabited

namespace Generation

def addrs (g : Generation) : List SocketAddr := g.candidates.map Candidate.addr

def size (g : Generation) : Nat := g.candidates.length

/-- The candidate with an address. -/
def find? (g : Generation) (addr : SocketAddr) : Option Candidate :=
  g.candidates.find? fun c => c.addr = addr

end Generation

/-- The pool: its generation, the number of the next one, and every failure
recorded so far. -/
structure Pool where
  current : Generation := ⟨0, []⟩
  nextId : Nat := 1
  failed : List Candidate := []
  deriving DecidableEq, Repr, Inhabited

/-- A stream of random numbers. -/
abbrev Draws := Nat → Nat

/-- The stream after the first `n` numbers. -/
def Draws.drop (d : Draws) (n : Nat) : Draws := fun i => d (n + i)

namespace Pool

/-! ### Failures -/

/-- How often a candidate has failed, as its counter of 32 bits shows it. -/
def failures (p : Pool) (c : Candidate) : Nat := p.failed.count c % Nat.pow 2 32

/-- Record a failure of a candidate, whether or not it is still listed. -/
def recordFailure (p : Pool) (c : Candidate) : Pool := { p with failed := c :: p.failed }

/-- Whether a candidate has never failed. -/
def isHealthy (p : Pool) (c : Candidate) : Bool := p.failures c = 0

/-! ### Refresh -/

/-- Replace the generation by new candidates for some addresses. -/
def replace (p : Pool) (addrs : List SocketAddr) : Pool :=
  { p with
    current := ⟨p.nextId, (SocketAddr.listing addrs).map fun a => ⟨p.nextId, a⟩⟩
    nextId := p.nextId + 1 }

/-! ### Drawing -/

/-- Take a candidate out of the current generation. -/
def prune (p : Pool) (c : Candidate) : Pool :=
  { p with
    current := ⟨p.nextId, p.current.candidates.filter (· ≠ c)⟩
    nextId := p.nextId + 1 }

/-- What drawing has come to: a candidate or none, the pool left behind, and
the number of draws made. -/
structure Pick where
  candidate : Option Candidate
  pool : Pool
  draws : Nat
  deriving DecidableEq, Repr

/-- The candidate that a number draws. -/
def drawn (p : Pool) (n : Nat) : Option Candidate :=
  p.current.candidates[n % p.current.candidates.length]?

theorem drawn_mem {p : Pool} {n : Nat} {c : Candidate} (h : p.drawn n = some c) :
    c ∈ p.current.candidates := List.mem_of_getElem? h

theorem prune_length {p : Pool} {c : Candidate} (h : c ∈ p.current.candidates) :
    (p.prune c).current.candidates.length < p.current.candidates.length := by
  refine List.length_filter_lt_length_iff_exists.2 ⟨c, h, ?_⟩
  simp

/-- Draw until a candidate has never failed, taking out those that have;
`used` draws have been made before. -/
def pickFrom (d : Draws) (used : Nat) (p : Pool) : Pick :=
  match h : p.drawn (d used) with
  | none => ⟨none, p, used⟩
  | some c =>
    if p.isHealthy c then ⟨some c, p, used + 1⟩
    else
      have := prune_length (drawn_mem h)
      pickFrom d (used + 1) (p.prune c)
  termination_by p.current.candidates.length

/-- A random candidate that has never failed. -/
def pickHealthy (d : Draws) (p : Pool) : Pick := pickFrom d 0 p

end Pool

end Rendezvous
