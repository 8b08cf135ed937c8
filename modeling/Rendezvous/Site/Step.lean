/-
Rendezvous/Site/Step.lean

Steps at a site.

A step is done at once, or waits for a time or for the watcher, or is a
reconciliation with events, each of them a step, that happen while it is under
way.  Whenever something is due anywhere in a step the whole of it is polled,
and every part that can go on does.  The run of a reconciliation and its events
take turns: at the first poll the run goes first, at the second the events, and
so on.

Events happen in their order; one that waits holds up those after it, but not
the run.
-/
import Rendezvous.Gossip.Reconciler
import Rendezvous.Site

namespace Rendezvous.Site

variable {α : Type}

/-! ### Kinds of steps -/

/-- What a step waits for, a time or the end of the watcher, and what it does
then. -/
structure Wait (α : Type) where
  time : Option Nat
  watching : Bool
  finish : Site → Site × α

/-- What has come of a reconciliation, with the answers of its events. -/
structure Report (α : Type) where
  outcome : Option (Except Error Snapshot)
  elapsed : Elapsed
  state : Reconciler.State
  answers : List α

/-- A reconciliation, dated with a moment and waited for up to a limit: its run
once it has started, how often it was polled, and the answers so far. -/
structure Reconciliation (α : Type) where
  settings : ReconcilerSettings
  moment : Timestamp
  limit : Elapsed
  answer : Report α → α
  run : Option Reconciler.Run := none
  polls : Nat := 0
  answers : List α := []

/-- A step on its way to an answer.  The events of a reconciliation stand at
their distance from its start; those that are done are left out. -/
inductive Step (α : Type) where
  | done (a : α)
  | act (f : Reconciler.State → Site → Site × α)
  | wait (start : Site → Site × (α ⊕ Wait α))
  | waiting (w : Wait α)
  | reconcile (r : Reconciliation α) (events : List (Elapsed × Step α))

instance [Inhabited α] : Inhabited (Step α) := ⟨.done default⟩

/-! ### Waiting -/

/-- Whether a wait is over. -/
def Wait.isOver (w : Wait α) (s : Site) : Bool :=
  (w.watching && s.watcherResult?.isSome) || w.time.any (· ≤ s.now)

/-- Let go of the watcher if it has ended, and tell how. -/
def reap (s : Site) : Site × Option (Except Error Unit) :=
  match s.watcherResult? with
  | some r => ({ s with watcher := none }, some r)
  | none => (s, none)

namespace Step

/-- Wait for a while; to wait for no time at all is no wait. -/
def sleep (e : Elapsed) (answer : Site → α) : Step α :=
  .wait fun s =>
    if e.nanos = 0 then (s, .inl (answer s))
    else (s, .inr ⟨some (s.now + e.wait.nanos), false, fun s => (s, answer s)⟩)

/-- Wait until the watcher ends, no longer than a limit. -/
def waitWatcher (limit : Option Elapsed) (answer : Option (Except Error Unit) → α) : Step α :=
  .wait fun s =>
    let finish (s : Site) : Site × α := let (s, r) := s.reap; (s, answer r)
    let s := s.awaitWatcher
    if s.watcher.isNone || s.watcherResult?.isSome || limit.any (·.nanos = 0) then
      let (s, a) := finish s
      (s, .inl a)
    else (s, .inr ⟨limit.map fun e => s.now + e.nanos, true, finish⟩)

/-- Stop the watcher and wait until it ends. -/
def stopWatcher (answer : Except Error Unit → α) : Step α :=
  .wait fun s =>
    let finish (s : Site) : Site × α := let (s, r) := s.reap; (s, answer (r.getD (.ok ())))
    let s := s.awaitWatcher
    if s.watcher.isNone || s.watcherResult?.isSome then
      let (s, a) := finish s
      (s, .inl a)
    else
      ({ s with watcher := s.watcher.map fun w => w.stop s.now }, .inr ⟨none, true, finish⟩)

end Step

/-! ### Reconciliation -/

namespace Reconciliation

/-- The run, which starts now unless it has started. -/
def runAt (r : Reconciliation α) (now : Nat) : Reconciler.Run :=
  r.run.getD (.start r.settings now r.limit)

/-- Let a run do what is due at a site. -/
def proceed (r : Reconciliation α) (run : Reconciler.Run) (s : Site) : Reconciler.Run :=
  run.proceed (s.board.responders Tag.role r.settings.role.text) r.moment s.now

/-- What has come of a run. -/
def report (r : Reconciliation α) (run : Reconciler.Run) : Report α :=
  ⟨run.outcome, ⟨run.ended.getD run.started - run.started⟩, run.state, r.answers⟩

/-- The step after a poll: its answer once the run and all events are done. -/
def after (r : Reconciliation α) (run : Reconciler.Run) (events : List (Elapsed × Step α)) :
    Step α :=
  if run.ended.isSome && events.isEmpty then .done (r.answer (r.report run))
  else .reconcile { r with run := some run, polls := r.polls + 1 } events

end Reconciliation

/-! ### Polling -/

mutual

/-- Let a step do what it can now.  `state` is that of the reconciliation of
which it is an event. -/
def Step.poll (state : Reconciler.State) : Step α → Site → Site × Step α
  | .done a, s => (s, .done a)
  | .act f, s =>
    let (s, a) := f state s
    (s, .done a)
  | .wait start, s =>
    match start s with
    | (s, .inl a) => (s, .done a)
    | (s, .inr w) => (s, .waiting w)
  | .waiting w, s =>
    if w.isOver s then
      let (s, a) := w.finish s
      (s, .done a)
    else (s, .waiting w)
  | .reconcile r events, s =>
    let run := r.runAt s.now
    if r.polls % 2 = 0 then
      let run := r.proceed run s
      if run.isBusy s.now then (s, r.after run events)
      else
        let (s, answers, events) := pollEvents run.started run.state events s
        (s, { r with answers := r.answers ++ answers }.after run events)
    else
      let (s, answers, events) := pollEvents run.started run.state events s
      (s, { r with answers := r.answers ++ answers }.after (r.proceed run s) events)

/-- Let events happen whose time has come, up to one that has to wait: the
answers, and the events that are left. -/
def pollEvents (started : Nat) (state : Reconciler.State) :
    List (Elapsed × Step α) → Site → Site × List α × List (Elapsed × Step α)
  | [], s => (s, [], [])
  | (t, e) :: rest, s =>
    if s.now < started + t.nanos then (s, [], (t, e) :: rest)
    else match Step.poll state e s with
      | (s, .done a) =>
        let (s, answers, rest) := pollEvents started state rest s
        (s, a :: answers, rest)
      | (s, e) => (s, [], (t, e) :: rest)

end

/-! ### What comes next -/

/-- The earlier of two times, if there are any. -/
def earlier : Option Nat → Option Nat → Option Nat
  | some a, some b => some (min a b)
  | some a, none => some a
  | none, b => b

mutual

/-- When a step has something to do, if it does not wait for the watcher alone:
at once unless it has begun. -/
def Step.due : Step α → Option Nat
  | .done _ => none
  | .act _ => some 0
  | .wait _ => some 0
  | .waiting w => w.time
  | .reconcile r events =>
    match r.run with
    | none => some 0
    | some run => earlier run.due (eventsDue run.started events)

/-- When the first of some events has something to do. -/
def eventsDue (started : Nat) : List (Elapsed × Step α) → Option Nat
  | [] => none
  | (t, e) :: _ => (Step.due e).map (max (started + t.nanos))

end

mutual

/-- How often a step is polled at most: a reconciliation for each time it asks,
for its start, its deadline and its limit, and for its events; one that waits at
its start and its end, and once more when the watcher ends for which it waited
in vain. -/
def Step.polls : Step α → Nat
  | .done _ => 1
  | .act _ => 1
  | .wait _ => 3
  | .waiting _ => 1
  | .reconcile r events =>
    (Reconciler.Run.longest r.settings r.limit).nanos / r.settings.pollInterval.wait.nanos + 4
      + eventsPolls events

/-- How often events cause a poll at most: each when its time has come, and
then as often as its step. -/
def eventsPolls : List (Elapsed × Step α) → Nat
  | [] => 0
  | (_, e) :: rest => Step.polls e + 1 + eventsPolls rest

end

/-! ### Performing -/

/-- Poll a step up to `fuel` times, and let time pass in between. -/
def performFor : (fuel : Nat) → Step α → Site → Site × Option α
  | 0, _, s => (s, none)
  | fuel + 1, e, s =>
    match e.poll .waiting s with
    | (s, .done a) => (s, some a)
    | (s, e) =>
      match s.await e.due with
      | some s => performFor fuel e s
      | none => (s, none)

/-- Carry out a step; one that would wait for ever has no answer.  A watcher that
was waited for before may add a poll to its own. -/
def perform (s : Site) (e : Step α) : Site × Option α := performFor (e.polls + 2) e s

end Rendezvous.Site
