/-
Rendezvous/Site.lean

A cluster within one process, on a clock that jumps.

A site has a board, some publishers, one pool and perhaps a watcher.  Its time
stands still while something is done and jumps from one timer to the next while
something waits.  The watcher gets its turn only while something waits, and on
one time whoever waits goes on first: what the watcher has to do then it does at
the start of the next wait.
-/
import Rendezvous.Client.Balancer
import Rendezvous.Client.Watcher
import Rendezvous.Gossip.Board
import Rendezvous.Gossip.Publisher

namespace Rendezvous

/-- A watcher at work: what it does next, and when.  At its end the time is that
of the end.  A watcher that was once waited for wakes up its site when it ends. -/
structure WatcherTask where
  interval : Elapsed
  policy : QueryErrorPolicy
  phase : Watcher.Phase := .top
  due : Nat
  signal : Watcher.Signal := {}
  awaited : Bool := false

namespace WatcherTask

/-- Whether a watcher has not had its first turn. -/
def isFresh (w : WatcherTask) : Bool :=
  match w.phase with
  | .top => true
  | _ => false

/-- How a watcher has ended, if it has. -/
def result? (w : WatcherTask) : Option (Except Error Unit) :=
  match w.phase with
  | .done r => some r
  | _ => none

/-- Tell a watcher to stop, which it does on its next turn. -/
def stop (w : WatcherTask) (now : Nat) : WatcherTask :=
  { w with due := now, signal := { w.signal with stop := true } }

end WatcherTask

/-- All that there is at a site; times are in nanoseconds.  A watcher that was
let go before its first turn still refreshes once: `owed` counts those. -/
structure Site where
  now : Nat := 0
  board : Board := {}
  publishers : Table Publisher := Table.empty
  pool : Pool := {}
  held : Table Generation := Table.empty
  watcher : Option WatcherTask := none
  owed : Nat := 0
  draws : Nat := 0

namespace Site

/-! ### The watcher -/

/-- The members that the watcher asks for. -/
def proxies (s : Site) : Except Error (List Member) :=
  s.board.membersWithTag Tag.role NodeRole.proxy.text

/-- Refresh the pool once, and say how. -/
def refreshPool (s : Site) : Except Error Nat × Site :=
  let (r, pool) := Watcher.refresh s.proxies s.pool
  (r, { s with pool })

/-- The site after a refresh. -/
def refresh (s : Site) : Except Error (Site × Nat) :=
  let (r, s) := s.refreshPool
  r.map fun n => (s, n)

/-- How the watcher of a site has ended, if it has. -/
def watcherResult? (s : Site) : Option (Except Error Unit) :=
  s.watcher.bind WatcherTask.result?

/-- Start a watcher, which will be due at once, and let go of the one before. -/
def startWatcher (s : Site) (interval : Elapsed) (policy : QueryErrorPolicy) : Site :=
  let late := if s.watcher.any WatcherTask.isFresh then 1 else 0
  { s with watcher := some { interval, policy, due := s.now }, owed := s.owed + late }

/-- Let the watcher have one turn, at the time it is due. -/
def tick (s : Site) (w : WatcherTask) : Site :=
  let (phase, pool) := Watcher.refreshStep w.policy w.signal s.proxies s.pool
  let due := match phase with
    | .done _ => w.due
    | _ => w.due + w.interval.wait.nanos
  { s with pool, watcher := some { w with phase, due } }

/-- Let the watcher go on while it is due before a time. -/
def watchFor (time : Nat) : (fuel : Nat) → Site → Site
  | 0, s => s
  | fuel + 1, s =>
    match s.watcher with
    | none => s
    | some w => if w.result?.isNone && w.due < time then watchFor time fuel (s.tick w) else s

/-- Do the refreshes that are owed; what goes wrong in them is lost. -/
def settleOwed (s : Site) : Site :=
  (List.range s.owed).foldl (fun s _ => s.refreshPool.2) { s with owed := 0 }

/-- Let the watcher go on up to a time: at most so many intervals fit in. -/
def watchUntil (s : Site) (time : Nat) : Site :=
  let s := s.settleOwed
  match s.watcher with
  | none => s
  | some w => watchFor time ((time - w.due) / w.interval.wait.nanos + 1) s

/-- Note that the watcher is waited for. -/
def awaitWatcher (s : Site) : Site :=
  { s with watcher := s.watcher.map fun w => { w with awaited := true } }

/-- Wait until a time, or until the watcher ends if it was ever waited for.
With neither there is no end. -/
def await (s : Site) (time : Option Nat) : Option Site :=
  let last := match time, s.watcher with
    | some t, _ => max t (s.now + 1)
    | none, some w => max w.due s.now + 1
    | none, none => s.now + 1
  let later := s.watchUntil last
  let ended := later.watcher.filter fun w =>
    s.watcherResult?.isNone && w.awaited && w.result?.isSome
  match ended with
  | some w => some { later with now := max s.now w.due }
  | none => time.map fun t => { later with now := max s.now t }

/-! ### The pool -/

/-- The site after a request or a draw. -/
def withPool (s : Site) (p : Pool) (draws : Nat) : Site := { s with pool := p, draws }

/-- Draw a healthy candidate. -/
def pick (s : Site) (d : Draws) : Site × Option Candidate :=
  let r := Pool.pickFrom d s.draws s.pool
  (s.withPool r.pool r.draws, r.candidate)

/-! ### Publishers -/

/-- How the tags of a node reach the board. -/
def send (node : String) : Send Board := fun tags b => b.publishTags node tags

/-- Let a publisher act on the board; both stay as it leaves them. -/
def withPublisher {α : Type} (s : Site) (name : String)
    (act : Publisher → Board → Except Error α × Publisher.Desk Board) : Except Error α × Site :=
  match s.publishers.get? name with
  | none => (.error (.unknownNode name), s)
  | some p =>
    let (r, p, board) := act p s.board
    (r, { s with board, publishers := s.publishers.insert name p })

/-- The site after a publisher has published its configuration. -/
def publish (s : Site) (name : String) : Except Error (Site × TagSet) :=
  let (r, s) := s.withPublisher name fun p b => p.publish (send name) b
  r.map fun tags => (s, tags)

/-- The site after the configuration of a publisher was changed. -/
def update (s : Site) (name : String) (change : Advertised → Advertised) :
    Except Error (Site × Bool) :=
  let (r, s) := s.withPublisher name fun p b => p.update change (send name) b
  r.map fun published => (s, published)

end Site

end Rendezvous
