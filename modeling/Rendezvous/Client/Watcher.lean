/-
Rendezvous/Client/Watcher.lean

Keeping the pool in line with the live proxies.

A refresh asks for the proxies and lists those that are alive and advertise a
port.  A watcher refreshes, waits for its interval or for a signal, and starts
again; it looks at the signal before every refresh and stops when it is set or
when nobody is left to set it.
-/
import Rendezvous.Client.Pool
import Rendezvous.Error
import Rendezvous.Member
import Rendezvous.Settings

namespace Rendezvous.Watcher

/-! ### One refresh -/

/-- The address at which a member serves as a proxy. -/
def proxyAddr? (m : Member) : Option SocketAddr :=
  if m.status = .alive then
    ((m.tags.get? Tag.httpPort).bind Text.port?).map fun port => ⟨m.addr, port, 0⟩
  else none

/-- Put the live proxies into the pool; the number is that of the proxies. -/
def refresh (query : Except Error (List Member)) (p : Pool) : Except Error Nat × Pool :=
  match query with
  | .error e => (.error e, p)
  | .ok members =>
    let addrs := members.filterMap proxyAddr?
    (.ok addrs.length, p.replace addrs)

/-! ### The loop -/

/-- Where a watcher stands: before its next refresh, between refreshes, or at
its end. -/
inductive Phase where
  | top
  | asleep
  | done (result : Except Error Unit)

/-- The signal by which a watcher is stopped. -/
structure Signal where
  stop : Bool := false
  dropped : Bool := false
  deriving DecidableEq, Repr, Inhabited

/-- What wakes a watcher that is asleep. -/
inductive Wake where
  | interval
  | signal
  deriving DecidableEq, Repr

/-- Start the loop over: stop if the signal is set, else refresh. -/
def refreshStep (policy : QueryErrorPolicy) (signal : Signal)
    (query : Except Error (List Member)) (p : Pool) : Phase × Pool :=
  if signal.stop then (.done (.ok ()), p)
  else match refresh query p, policy with
    | (.ok _, p), _ => (.asleep, p)
    | (.error e, p), .terminate => (.done (.error e), p)
    | (.error _, p), .retry => (.asleep, p)

/-- Wake up: when the signal's owner is gone the watcher ends. -/
def wakeStep (signal : Signal) : Wake → Phase
  | .interval => .top
  | .signal => if signal.dropped then .done (.ok ()) else .top

end Rendezvous.Watcher
