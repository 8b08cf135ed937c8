/-
Rendezvous/Proofs/Watching.lean

Watching until told to stop.

A watcher looks at its signal and starts a refresh, waits for the answer, sleeps until its
interval is over or something is heard of its signal, and starts again.  Meanwhile the
signal is set and unset, its owner goes away, and others use the pool.  So a watcher is
taken here as a run of events, its own and those of the others in any order (`Run.next`,
`after`); one that comes out of turn is passed over.  A turn with nothing in between is
what a watcher does by itself (`turn_eq_refreshStep`, `tick_eq_turn`).

What one event does is said once (`Step`), and from it by induction over the events:

* refreshes are counted: those that have started and those that have come to an end differ
  by the one under way, and with the strict policy an error is the last (`Orderly`);
* an end is for good (`ended_append`);
* a good end has its reason: the signal was set before, or its owner gone (`told_of_ended`);
* while the signal is set nothing starts (`started_of_set`), and it soon ends (`ended_of_set`);
* only good answers and others change the pool (`pool_of_spared`).

All of it together is `watches_until_told`.
-/
import Mathlib.Data.List.Induction
import Rendezvous.Proofs.Refresh
import Rendezvous.Site

namespace Rendezvous.Watcher

/-! ### The signal -/

/-- A signal on its way: its value, whether a value has come that the watcher has not
waited for yet, and whether the owner is gone. -/
structure Channel where
  value : Bool := false
  unseen : Bool := false
  closed : Bool := false

/-- What the owner of a signal does. -/
inductive Notice where
  | send (value : Bool)
  | drop

namespace Channel

/-- Nothing is sent when the owner is gone. -/
def take (ch : Channel) : Notice → Channel
  | .send value => if ch.closed then ch else { ch with value, unseen := true }
  | .drop => { ch with closed := true }

/-- The signal as a watcher hears of it: a value that it has not seen comes first. -/
def signal (ch : Channel) : Signal := ⟨ch.value, ch.closed && !ch.unseen⟩

/-- What has come is seen. -/
def see (ch : Channel) : Channel := { ch with unseen := false }

/-- Whether there is something to be heard of. -/
def isReady (ch : Channel) : Bool := ch.unseen || ch.closed

end Channel

/-! ### Runs -/

/-- Where a watcher stands, if it is not waiting for an answer. -/
inductive Stage where
  | standing (phase : Phase)
  | refreshing

namespace Stage

/-- A watcher that has ended. -/
abbrev ended (result : Except Error Unit) : Stage := standing (.done result)

/-- How many refreshes are under way. -/
def busy : Stage → Nat
  | standing _ => 0
  | refreshing => 1

end Stage

/-- What comes of a query. -/
abbrev Outcome := Except Error (List Member)

/-- What happens. -/
inductive Event where
  /-- The watcher looks at its signal, and starts a refresh unless it is set. -/
  | check
  /-- The answer to the query of a refresh comes. -/
  | answer (query : Outcome)
  /-- The interval is over. -/
  | interval
  /-- The watcher hears of its signal. -/
  | heard
  /-- The owner of the signal does something. -/
  | notice (n : Notice)
  /-- Somebody else uses the pool. -/
  | used (e : Pool.Event)

/-- Whether an event leaves the pool alone: all do but good answers and others. -/
def Event.sparesPool : Event → Bool
  | answer (.ok _) => false
  | used _ => false
  | _ => true

/-- A watcher among others, and what has come of its refreshes. -/
structure Run where
  pool : Pool
  channel : Channel
  stage : Stage := .standing .top
  /-- How many refreshes have started. -/
  started : Nat := 0
  /-- The answers to those that have come to an end. -/
  outcomes : List Outcome := []

namespace Run

/-- What an event does; one that is out of turn does nothing. -/
def next (policy : QueryErrorPolicy) (w : Run) (e : Event) : Run :=
  match w.stage, e with
  | _, .notice n => { w with channel := w.channel.take n }
  | _, .used a => { w with pool := w.pool.act a }
  | .standing .top, .check =>
    if w.channel.signal.stop then { w with stage := .ended (.ok ()) }
    else { w with stage := .refreshing, started := w.started + 1 }
  | .refreshing, .answer query =>
    let (phase, pool) := refreshStep policy {} query w.pool
    { w with stage := .standing phase, pool, outcomes := w.outcomes ++ [query] }
  | .standing .asleep, .interval =>
    { w with stage := .standing (wakeStep w.channel.signal .interval) }
  | .standing .asleep, .heard =>
    if w.channel.isReady then
      { w with
        stage := .standing (wakeStep w.channel.signal .signal)
        channel := w.channel.see }
    else w
  | _, _ => w

end Run

/-- A watcher at its start, and then some events. -/
def after (policy : QueryErrorPolicy) (p : Pool) (ch : Channel) (events : List Event) : Run :=
  events.foldl (Run.next policy) { pool := p, channel := ch }

variable {policy : QueryErrorPolicy} {p : Pool} {ch : Channel} {w w' : Run} {e : Event}
  {events more : List Event} {r : Except Error Unit} {l : List Outcome} {q : Outcome}

theorem after_append (events more : List Event) : after policy p ch (events ++ more)
    = more.foldl (Run.next policy) (after policy p ch events) := List.foldl_append

/-! ### What one event does -/

/-- What one event may do; out of turn it does nothing. -/
inductive Step (policy : QueryErrorPolicy) : Run → Event → Run → Prop
  | stop {p : Pool} {ch : Channel} {n : Nat} {l : List Outcome} (hset : ch.value = true) :
      Step policy ⟨p, ch, .standing .top, n, l⟩ .check ⟨p, ch, .ended (.ok ()), n, l⟩
  | start {p : Pool} {ch : Channel} {n : Nat} {l : List Outcome} (hset : ch.value = false) :
      Step policy ⟨p, ch, .standing .top, n, l⟩ .check ⟨p, ch, .refreshing, n + 1, l⟩
  | install {p : Pool} {ch : Channel} {n : Nat} {l : List Outcome} (members : List Member) :
      Step policy ⟨p, ch, .refreshing, n, l⟩ (.answer (.ok members))
        ⟨p.replace (members.filterMap proxyAddr?), ch, .standing .asleep, n, l ++ [.ok members]⟩
  | giveUp {p : Pool} {ch : Channel} {n : Nat} {l : List Outcome} (error : Error)
      (hpolicy : policy = .terminate) :
      Step policy ⟨p, ch, .refreshing, n, l⟩ (.answer (.error error))
        ⟨p, ch, .ended (.error error), n, l ++ [.error error]⟩
  | carryOn {p : Pool} {ch : Channel} {n : Nat} {l : List Outcome} (error : Error)
      (hpolicy : policy = .retry) :
      Step policy ⟨p, ch, .refreshing, n, l⟩ (.answer (.error error))
        ⟨p, ch, .standing .asleep, n, l ++ [.error error]⟩
  | wake {p : Pool} {ch : Channel} {n : Nat} {l : List Outcome} :
      Step policy ⟨p, ch, .standing .asleep, n, l⟩ .interval ⟨p, ch, .standing .top, n, l⟩
  | told {p : Pool} {ch : Channel} {n : Nat} {l : List Outcome} (hunseen : ch.unseen = true) :
      Step policy ⟨p, ch, .standing .asleep, n, l⟩ .heard ⟨p, ch.see, .standing .top, n, l⟩
  | orphaned {p : Pool} {ch : Channel} {n : Nat} {l : List Outcome} (hseen : ch.unseen = false)
      (hclosed : ch.closed = true) :
      Step policy ⟨p, ch, .standing .asleep, n, l⟩ .heard ⟨p, ch.see, .ended (.ok ()), n, l⟩
  | notice {p : Pool} {ch : Channel} {stage : Stage} {n : Nat} {l : List Outcome} (x : Notice) :
      Step policy ⟨p, ch, stage, n, l⟩ (.notice x) ⟨p, ch.take x, stage, n, l⟩
  | used {p : Pool} {ch : Channel} {stage : Stage} {n : Nat} {l : List Outcome}
      (a : Pool.Event) : Step policy ⟨p, ch, stage, n, l⟩ (.used a) ⟨p.act a, ch, stage, n, l⟩
  | outOfTurn {w : Run} {e : Event} : Step policy w e w

theorem step_answer {n : Nat} (query : Outcome) :
    Step policy ⟨p, ch, .refreshing, n, l⟩ (.answer query)
      ⟨(refreshStep policy {} query p).2, ch, .standing (refreshStep policy {} query p).1, n,
        l ++ [query]⟩ := by
  cases query with
  | ok members =>
    rw [refreshStep_ok rfl]
    exact .install members
  | error error =>
    cases policy with
    | terminate => exact .giveUp error rfl
    | retry => exact .carryOn error rfl

theorem step_heard {n : Nat} (hready : ch.isReady = true) :
    Step policy ⟨p, ch, .standing .asleep, n, l⟩ .heard
      ⟨p, ch.see, .standing (wakeStep ch.signal .signal), n, l⟩ := by
  cases hunseen : ch.unseen with
  | true =>
    have hphase : wakeStep ch.signal .signal = .top := by
      simp [wakeStep, Channel.signal, hunseen]
    rw [hphase]
    exact .told hunseen
  | false =>
    have hclosed : ch.closed = true := by simpa [Channel.isReady, hunseen] using hready
    have hphase : wakeStep ch.signal .signal = .done (.ok ()) := by
      simp [wakeStep, Channel.signal, hunseen, hclosed]
    rw [hphase]
    exact .orphaned hunseen hclosed

/-- Whatever happens is a step. -/
theorem step_next (w : Run) (e : Event) : Step policy w e (w.next policy e) := by
  obtain ⟨p, ch, stage, n, l⟩ := w
  rw [Run.next.eq_def]
  dsimp only
  split
  case h_1 x => exact .notice x
  case h_2 a => exact .used a
  case h_3 =>
    split
    case isTrue hset => exact .stop hset
    case isFalse hunset => exact .start (Bool.eq_false_iff.mpr hunset)
  case h_4 query => exact step_answer query
  case h_5 => exact .wake
  case h_6 =>
    split
    case isTrue hready => exact step_heard hready
    case isFalse => exact .outOfTurn
  case h_7 => exact .outOfTurn

/-- One more event is one more step. -/
theorem step_after (policy : QueryErrorPolicy) (p : Pool) (ch : Channel) (events : List Event)
    (e : Event) :
    Step policy (after policy p ch events) e (after policy p ch (events ++ [e])) := by
  rw [after_append]
  exact step_next _ e

/-- What the steps of some more events keep, these events keep. -/
theorem append_induction {motive : Run → Prop} (hbase : motive (after policy p ch events))
    (hstep : ∀ seen e w', seen ++ [e] <+: more → motive (after policy p ch (events ++ seen)) →
      Step policy (after policy p ch (events ++ seen)) e w' → motive w') :
    motive (after policy p ch (events ++ more)) := by
  suffices h : ∀ seen, seen <+: more → motive (after policy p ch (events ++ seen)) from
    h more (List.prefix_refl more)
  intro seen
  induction seen using List.reverseRecOn with
  | nil =>
    intro _
    rwa [List.append_nil]
  | append_singleton seen e ih =>
    intro hseen
    have hkept := ih ((List.prefix_append seen [e]).trans hseen)
    refine hstep seen e _ hseen hkept ?_
    rw [← List.append_assoc]
    exact step_after policy p ch (events ++ seen) e

/-! ### A turn by itself -/

/-- Of its signal a turn looks at the value only. -/
theorem refreshStep_congr {signal signal' : Signal} (h : signal.stop = signal'.stop)
    (query : Outcome) (p : Pool) :
    refreshStep policy signal query p = refreshStep policy signal' query p := by
  simp only [refreshStep, h]

/-- **A turn with nothing in between** is what a watcher does by itself: it looks at its
signal, and ends or refreshes. -/
theorem turn_eq_refreshStep (policy : QueryErrorPolicy) (hstage : w.stage = .standing .top)
    (query : Outcome) :
    let turn := refreshStep policy w.channel.signal query w.pool
    let w' := [Event.check, .answer query].foldl (Run.next policy) w
    w'.stage = .standing turn.1 ∧ w'.pool = turn.2 := by
  intro turn w'
  cases hset : w.channel.signal.stop with
  | true => simp [w', turn, Run.next, hstage, refreshStep, hset]
  | false =>
    have hturn : turn = refreshStep policy {} query w.pool := refreshStep_congr hset query w.pool
    rw [hturn]
    simp [w', Run.next, hstage, hset]

/-- The watcher of a site takes such turns, one after each interval. -/
theorem tick_eq_turn {s : Site} {task : WatcherTask} (hgoing : task.result? = none)
    (hpool : w.pool = s.pool) (hstage : w.stage = .standing task.phase)
    (hsignal : w.channel.value = task.signal.stop) :
    let w' := [Event.interval, .check, .answer s.proxies].foldl (Run.next task.policy) w
    (s.tick task).pool = w'.pool
    ∧ (s.tick task).watcher.map (fun t => Stage.standing t.phase) = some w'.stage := by
  intro w'
  have hwake : w.next task.policy .interval = { w with stage := .standing .top } := by
    obtain ⟨p, ch, stage, n, l⟩ := w
    subst hstage
    rcases hphase : task.phase with _ | _ | r
    · rfl
    · rfl
    · simp [WatcherTask.result?, hphase] at hgoing
  have hturn : refreshStep task.policy w.channel.signal s.proxies w.pool
      = refreshStep task.policy task.signal s.proxies s.pool := by
    rw [hpool]
    exact refreshStep_congr hsignal _ _
  have hw' : w' = [Event.check, .answer s.proxies].foldl (Run.next task.policy)
      { w with stage := .standing .top } := by
    rw [← hwake]
    rfl
  obtain ⟨hphase, hleft⟩ := turn_eq_refreshStep (w := { w with stage := .standing .top })
    task.policy rfl s.proxies
  rw [hw', hphase, hleft, hturn]
  exact ⟨rfl, rfl⟩

/-! ### What is known of the outcomes -/

/-- With the strict policy there has been no error. -/
def Endured (policy : QueryErrorPolicy) (l : List Outcome) : Prop :=
  policy = .terminate → ∀ q ∈ l, q.isOk

theorem Endured.concat (h : Endured policy l) (hq : policy = .terminate → q.isOk) :
    Endured policy (l ++ [q]) := by
  intro hpolicy q' hq'
  rcases List.mem_append.mp hq' with hold | hnew
  · exact h hpolicy q' hold
  · rw [List.mem_singleton.mp hnew]
    exact hq hpolicy

/-- The outcomes that go with a stage and a number of refreshes that have started: all have
come to an end but the one under way, and an error that has ended the watcher is the last. -/
inductive Orderly (policy : QueryErrorPolicy) : Stage → Nat → List Outcome → Prop
  | standing {phase : Phase} {n : Nat} {l : List Outcome} (hphase : ∀ e, phase ≠ .done (.error e))
      (hcount : n = l.length) (h : Endured policy l) : Orderly policy (.standing phase) n l
  | refreshing {n : Nat} {l : List Outcome} (hcount : n = l.length + 1) (h : Endured policy l) :
      Orderly policy .refreshing n l
  | failed {n : Nat} {good : List Outcome} (error : Error) (hpolicy : policy = .terminate)
      (hcount : n = good.length + 1) (h : Endured policy good) :
      Orderly policy (.ended (.error error)) n (good ++ [.error error])

/-- **A step keeps the outcomes in order.** -/
theorem Orderly.step (h : Orderly policy w.stage w.started w.outcomes)
    (hstep : Step policy w e w') : Orderly policy w'.stage w'.started w'.outcomes := by
  cases hstep with
  | start hset =>
    cases h with
    | standing hphase hcount h => exact .refreshing (congrArg (· + 1) hcount) h
  | install members =>
    cases h with
    | refreshing hcount h => exact .standing nofun (by simpa using hcount) (h.concat fun _ => rfl)
  | giveUp error hpolicy =>
    cases h with
    | refreshing hcount h => exact .failed error hpolicy hcount h
  | carryOn error hpolicy =>
    cases h with
    | refreshing hcount h =>
      refine .standing nofun (by simpa using hcount) (h.concat fun hstrict => ?_)
      cases hpolicy.symm.trans hstrict
  | stop | wake | told | orphaned =>
    -- no refresh starts or comes to an end
    cases h with
    | standing hphase hcount h => exact .standing nofun hcount h
  | notice | used | outOfTurn => exact h

theorem orderly_after (events : List Event) :
    Orderly policy (after policy p ch events).stage (after policy p ch events).started
      (after policy p ch events).outcomes := by
  induction events using List.reverseRecOn with
  | nil => exact .standing nofun rfl fun _ => nofun
  | append_singleton events e ih => exact ih.step (step_after policy p ch events e)

namespace Orderly

variable {stage : Stage} {n : Nat} {error : Error}

theorem counted (h : Orderly policy stage n l) : n = l.length + stage.busy := by
  cases h with
  | standing hphase hcount h => exact hcount
  | refreshing hcount h => exact hcount
  | failed error hpolicy hcount h => simpa [Stage.busy] using hcount

/-- An error ends a watcher with the strict policy only, and is the first one. -/
theorem of_ended (h : Orderly policy stage n l) (hstage : stage = .ended (.error error)) :
    policy = .terminate ∧ ∃ good, (∀ q ∈ good, q.isOk) ∧ l = good ++ [.error error] := by
  cases h with
  | standing hphase hcount h =>
    cases hstage
    exact absurd rfl (hphase error)
  | refreshing hcount h => cases hstage
  | @failed n good error' hpolicy hcount h =>
    cases hstage
    exact ⟨hpolicy, good, h hpolicy, rfl⟩

/-- With the strict policy the first error ends it. -/
theorem ended_of_mem (h : Orderly .terminate stage n l) (herror : .error error ∈ l) :
    stage = .ended (.error error) := by
  cases h with
  | standing hphase hcount h => cases h rfl _ herror
  | refreshing hcount h => cases h rfl _ herror
  | failed error' hpolicy hcount h =>
    rcases List.mem_append.mp herror with hgood | hlast
    · cases h rfl _ hgood
    · cases List.mem_singleton.mp hlast
      rfl

end Orderly

/-! ### Ends -/

theorem ended_step (h : w.stage = .ended r) (hstep : Step policy w e w') :
    w'.stage = .ended r ∧ w'.started = w.started ∧ w'.outcomes = w.outcomes := by
  cases hstep with
  | notice | used | outOfTurn => exact ⟨h, rfl, rfl⟩
  | _ => cases h

/-- An end is for good. -/
theorem ended_append (h : (after policy p ch events).stage = .ended r) (more : List Event) :
    let w := after policy p ch events
    let w' := after policy p ch (events ++ more)
    w'.stage = .ended r ∧ w'.started = w.started ∧ w'.outcomes = w.outcomes := by
  refine append_induction (motive := fun w' => w'.stage = .ended r ∧ w'.started = _
    ∧ w'.outcomes = _) ⟨h, rfl, rfl⟩ fun seen e w' _ hkept hstep => ?_
  obtain ⟨hstage, hstarted, houtcomes⟩ := ended_step hkept.1 hstep
  exact ⟨hstage, hstarted.trans hkept.2.1, houtcomes.trans hkept.2.2⟩

/-- Who ends well finds its signal set, or its owner gone. -/
theorem told_of_step (h : w'.stage = .ended (.ok ())) (hstep : Step policy w e w') :
    w.stage = .ended (.ok ()) ∨ w.channel.value = true ∨ w.channel.closed = true := by
  cases hstep with
  | stop hset => exact Or.inr (Or.inl hset)
  | orphaned hseen hclosed => exact Or.inr (Or.inr hclosed)
  | notice | used | outOfTurn => exact Or.inl h
  | _ => cases h

/-- A good end has its reason. -/
theorem told_of_ended (h : (after policy p ch events).stage = .ended (.ok ())) :
    ∃ seen, seen <+: events ∧ ((after policy p ch seen).channel.value = true
      ∨ (after policy p ch seen).channel.closed = true) := by
  induction events using List.reverseRecOn with
  | nil => cases h
  | append_singleton events e ih =>
    rcases told_of_step h (step_after policy p ch events e) with hended | htold
    · obtain ⟨seen, hseen, htold⟩ := ih hended
      exact ⟨seen, hseen.trans (List.prefix_append events [e]), htold⟩
    · exact ⟨events, List.prefix_append events [e], htold⟩

/-- Once the signal is set an answer, if one is waited for, an interval and a look are
enough to end a watcher. -/
theorem ended_of_set (hset : w.channel.value = true) (query : Outcome) :
    ∃ r, ([Event.answer query, .interval, .check].foldl (Run.next policy) w).stage = .ended r := by
  obtain ⟨p, ch, stage, n, l⟩ := w
  have hstop : ch.signal.stop = true := hset
  rcases stage with (_ | _ | r) | _
  · exact ⟨.ok (), by simp [Run.next, hstop]⟩
  · exact ⟨.ok (), by simp [Run.next, wakeStep, hstop]⟩
  · exact ⟨r, rfl⟩
  · -- an error under the strict policy ends it before it looks
    cases query with
    | ok members => exact ⟨.ok (), by simp [Run.next, refreshStep_ok, wakeStep, hstop]⟩
    | error error =>
      cases policy with
      | terminate => exact ⟨.error error, rfl⟩
      | retry => exact ⟨.ok (), by simp [Run.next, refreshStep, refresh, wakeStep, hstop]⟩

/-! ### What does not happen -/

theorem started_step (hset : w.channel.value = true) (hstep : Step policy w e w') :
    w'.started = w.started := by
  cases hstep with
  | start hunset => cases hset.symm.trans hunset
  | _ => rfl

/-- While the signal is set nothing starts. -/
theorem started_of_set (hset : ∀ seen, seen <+: more →
      (after policy p ch (events ++ seen)).channel.value = true) :
    (after policy p ch (events ++ more)).started = (after policy p ch events).started := by
  refine append_induction (motive := fun w' => w'.started = _) rfl
    fun seen e w' hseen hkept hstep => ?_
  have hnow := hset seen ((List.prefix_append seen [e]).trans hseen)
  exact (started_step hnow hstep).trans hkept

theorem pool_step (hspares : e.sparesPool) (hstep : Step policy w e w') : w'.pool = w.pool := by
  cases hstep with
  | install members => cases hspares
  | used a => cases hspares
  | _ => rfl

/-- A good answer fills the pool. -/
theorem pool_of_answer (hstage : (after policy p ch events).stage = .refreshing)
    (members : List Member) :
    (after policy p ch (events ++ [.answer (.ok members)])).pool
      = (after policy p ch events).pool.replace (members.filterMap proxyAddr?) := by
  rw [after_append]
  simp [Run.next, hstage, refreshStep_ok]

/-- Nothing but good answers and others changes the pool. -/
theorem pool_of_spared (hspares : ∀ e ∈ more, e.sparesPool) :
    (after policy p ch (events ++ more)).pool = (after policy p ch events).pool := by
  refine append_induction (motive := fun w' => w'.pool = _) rfl
    fun seen e w' hseen hkept hstep => ?_
  have hmem : e ∈ more := hseen.subset (List.mem_append_right seen List.mem_cons_self)
  exact (pool_step (hspares e hmem) hstep).trans hkept

/-! ### Watching -/

/-- **A watcher stops when it should.**  Whatever happens and in whatever order:

* an error ends it with the strict policy only, and then it is the first one; with that
  policy the first error does end it;
* an end is for good, and nothing starts after it;
* a good answer to a refresh under way fills the pool, and whatever else happens, failed
  refreshes included, leaves it alone, other users of the pool apart;
* it ends well only after its signal was set or the owner of the signal was gone, and with
  the signal set it ends when it looks at it next;
* while the signal is set no refresh starts, and so no more come to an end than the one that
  was under way. -/
theorem watches_until_told (policy : QueryErrorPolicy) (p : Pool) (ch : Channel)
    (events : List Event) :
    let w := after policy p ch events
    ((∀ e, w.stage = .ended (.error e) →
        policy = .terminate ∧ ∃ good, (∀ q ∈ good, q.isOk) ∧ w.outcomes = good ++ [.error e])
      ∧ (policy = .terminate → ∀ e, .error e ∈ w.outcomes → w.stage = .ended (.error e)))
    ∧ (∀ r, w.stage = .ended r → ∀ more,
      let w' := after policy p ch (events ++ more)
      w'.stage = .ended r ∧ w'.started = w.started ∧ w'.outcomes = w.outcomes)
    ∧ ((∀ members, w.stage = .refreshing →
        (after policy p ch (events ++ [.answer (.ok members)])).pool
          = w.pool.replace (members.filterMap proxyAddr?))
      ∧ ∀ more, (∀ e ∈ more, e.sparesPool) → (after policy p ch (events ++ more)).pool = w.pool)
    ∧ (w.stage = .ended (.ok ()) → ∃ seen, seen <+: events
      ∧ ((after policy p ch seen).channel.value = true
        ∨ (after policy p ch seen).channel.closed = true))
    ∧ (w.channel.value = true → ∀ query, ∃ r,
      (after policy p ch (events ++ [.answer query, .interval, .check])).stage = .ended r)
    ∧ ∀ more, (∀ seen, seen <+: more →
        (after policy p ch (events ++ seen)).channel.value = true) →
      let w' := after policy p ch (events ++ more)
      w'.started = w.started ∧ w'.outcomes.length ≤ w.outcomes.length + w.stage.busy := by
  intro w
  have horderly : Orderly policy w.stage w.started w.outcomes := orderly_after events
  refine ⟨⟨fun e => horderly.of_ended, ?_⟩, fun r => ended_append,
    ⟨fun members hstage => pool_of_answer hstage members, fun more => pool_of_spared⟩,
    told_of_ended, fun hset query => ?_, ?_⟩
  · rintro rfl e herror
    exact horderly.ended_of_mem herror
  · rw [after_append]
    exact ended_of_set hset query
  · intro more hset w'
    have hstarted : w'.started = w.started := started_of_set hset
    refine ⟨hstarted, ?_⟩
    -- those that have come to an end had started, and nothing has started since
    have hcounted := horderly.counted
    have hcounted' : w'.started = w'.outcomes.length + w'.stage.busy :=
      (orderly_after (events ++ more)).counted
    omega

/-- A watcher whose signal is set while its second refresh is under way. -/
def overtaken : List Event :=
  [.check, .answer (.ok []), .interval, .check, .notice (.send true)]

/-- That refresh fails, and the watcher ends well with the pool of the first one. -/
theorem watches_until_told_overtaken :
    let w := after .retry {} {} overtaken
    let w' := after .retry {} {} (overtaken ++ [.answer (.error .poolExhausted), .heard, .check])
    w.stage = .refreshing ∧ w'.stage = .ended (.ok ()) ∧ w'.started = w.started
    ∧ w'.pool = w.pool := by
  intro w w'
  obtain ⟨-, -, ⟨-, hspared⟩, -, -, hquiet⟩ := watches_until_told .retry {} {} overtaken
  have hpool : w'.pool = w.pool := by
    apply hspared
    simp [Event.sparesPool]
  have hstarted : w'.started = w.started := by
    refine (hquiet _ fun seen hseen => ?_).1
    simp only [List.prefix_cons_iff, List.prefix_nil] at hseen
    obtain rfl | ⟨_, rfl, rfl | ⟨_, rfl, rfl | ⟨_, rfl, rfl⟩⟩⟩ := hseen <;> rfl
  exact ⟨rfl, rfl, hstarted, hpool⟩

end Rendezvous.Watcher
