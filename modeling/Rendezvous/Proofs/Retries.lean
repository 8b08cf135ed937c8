/-
Rendezvous/Proofs/Retries.lean

Requests among other users of their pool.

A request draws a candidate, calls it, waits for the answer and starts again if
it is a failure.  Others refresh the pool, draw from it and record failures
between any two of these.  So a request is taken here as a run of events, its own
and those of the others in any order (`Run.next`, `after`); one that comes out of
turn is passed over.

What one event does is said once (`Step`), and four facts about a run come from
it by one induction (`after_induction`):

* before its last call every call has failed, and with the attempts that are left
  they make up the number allowed (`Orderly`);
* who is called was listed and had not failed at some moment (`Met`);
* a counter has risen by one for each failure, of the request or of others
  (`count_after`);
* the pool is exhausted exactly if the first draw found nobody
  (`exhausted_iff`).

A request that is carried out at one stroke, with others at work during its calls,
is such a run (`exists_run`), so all of this holds of it (`execute_accounted`).
-/
import Mathlib.Data.List.Induction
import Rendezvous.Proofs.Pool

namespace Rendezvous

namespace Pool

variable {p : Pool} {c : Candidate}

/-- What an event does to a pool. -/
def act (p : Pool) : Event → Pool
  | .refresh addrs => p.replace addrs
  | .pick d => (p.pickHealthy d).pool
  | .fail c => p.recordFailure c

/-- Whether an event records a failure of a candidate. -/
def Event.blames (c : Candidate) : Event → Bool
  | .fail c' => c' = c
  | .refresh _ => false
  | .pick _ => false

theorem count_recordFailure (c' : Candidate) : (p.recordFailure c').failed.count c
    = p.failed.count c + if decide (c' = c) then 1 else 0 := by
  show (c' :: p.failed).count c = _
  simp [List.count_cons]

theorem count_act (e : Event) :
    (p.act e).failed.count c = p.failed.count c + if e.blames c then 1 else 0 := by
  cases e with
  | refresh addrs => rfl
  | pick d => exact congrArg (List.count c) pickFrom_failed
  | fail c' => exact count_recordFailure c'

end Pool

namespace Balancer

variable {σ α : Type}

/-! ### Runs -/

/-- A call that was answered. -/
structure Call (α : Type) where
  candidate : Candidate
  answer : Except Error α

namespace Call

/-- A call of a candidate that failed. -/
def failed (x : Candidate × Error) : Call α := ⟨x.1, .error x.2⟩

theorem failed_injective : Function.Injective (failed : Candidate × Error → Call α) := by
  rintro ⟨c, e⟩ ⟨c', e'⟩ h
  cases h
  rfl

theorem ok_not_mem {c : Candidate} {a : α} {fails : List (Candidate × Error)} :
    ⟨c, .ok a⟩ ∉ fails.map failed := by
  simp [failed]

/-- Whether a call has failed against a candidate. -/
def blames (c : Candidate) : Call α → Bool
  | ⟨c', .error _⟩ => c' = c
  | ⟨_, .ok _⟩ => false

/-- What the one who carries out the call sees of it. -/
def seen (x : Call α) : SocketAddr × Except Error α := (x.candidate.addr, x.answer)

end Call

/-- Where a request stands. -/
inductive Stage (α : Type) where
  /-- It is about to draw, and `left` attempts may follow this one; `last` is the
  candidate of the one before and how it failed. -/
  | drawing (left : Nat) (last : Option (Candidate × Error))
  /-- It waits for the answer of a candidate. -/
  | calling (left : Nat) (c : Candidate)
  | ended (result : Except Error α)

/-- The stage after an attempt, or at first. -/
def Stage.resume (total : UInt32) (last : Option (Candidate × Error)) : (left : Nat) → Stage α
  | left + 1 => drawing left last
  | 0 =>
    match last with
    | some (_, e) => ended (.error (.retriesExhausted total e))
    | none => ended (.error .poolExhausted)

/-- A request, the pool it shares with others, and its calls, oldest first. -/
structure Run (α : Type) where
  pool : Pool
  stage : Stage α
  calls : List (Call α) := []

/-- What may happen next. -/
inductive Event (α : Type) where
  /-- The request draws a candidate. -/
  | draw (d : Draws) (used : Nat)
  /-- Its call is answered. -/
  | answer (r : Except Error α)
  /-- Somebody else does something with the pool. -/
  | other (e : Pool.Event)

namespace Event

def isDraw : Event α → Bool
  | draw _ _ => true
  | _ => false

/-- Whether somebody else records a failure of a candidate. -/
def blames (c : Candidate) : Event α → Bool
  | other e => e.blames c
  | _ => false

end Event

namespace Run

/-- Draw a candidate, or turn to the last one again. -/
def draw (w : Run α) (d : Draws) (used left : Nat) (last : Option (Candidate × Error)) : Run α :=
  let pick := Pool.pickFrom d used w.pool
  { w with
    pool := pick.pool
    stage :=
      match pick.candidate.or (last.map Prod.fst) with
      | some c => .calling left c
      | none => .ended (.error .poolExhausted) }

/-- Take the answer of a candidate. -/
def hear (total : UInt32) (w : Run α) (left : Nat) (c : Candidate) : Except Error α → Run α
  | .ok a => { w with stage := .ended (.ok a), calls := w.calls ++ [⟨c, .ok a⟩] }
  | .error e =>
    { pool := w.pool.recordFailure c
      stage := .resume total (some (c, e)) left
      calls := w.calls ++ [.failed (c, e)] }

def next (total : UInt32) (w : Run α) : Event α → Run α
  | .draw d used =>
    match w.stage with
    | .drawing left last => w.draw d used left last
    | _ => w
  | .answer r =>
    match w.stage with
    | .calling left c => w.hear total left c r
    | _ => w
  | .other e => { w with pool := w.pool.act e }

/-- Who is called, in a call that was answered or in one that waits. -/
def called (w : Run α) : List Candidate :=
  w.calls.map Call.candidate ++
    match w.stage with
    | .calling _ c => [c]
    | _ => []

end Run

/-- A request before its first draw. -/
def start (total : UInt32) (p : Pool) : Run α := ⟨p, .resume total none total.toNat, []⟩

/-- What events make of a request. -/
def after (total : UInt32) (p : Pool) (events : List (Event α)) : Run α :=
  events.foldl (Run.next total) (start total p)

/-! ### One event -/

/-- What one event may do; out of turn it does nothing. -/
inductive Step (total : UInt32) : Run α → Event α → Run α → Prop
  | found {p : Pool} {c : Candidate} {calls : List (Call α)} {last : Option (Candidate × Error)}
      {d : Draws} {left used : Nat} (h : (Pool.pickFrom d used p).candidate = some c) :
      Step total ⟨p, .drawing left last, calls⟩ (.draw d used)
        ⟨(Pool.pickFrom d used p).pool, .calling left c, calls⟩
  | again {p : Pool} {c : Candidate} {calls : List (Call α)} {e : Error} {d : Draws}
      {left used : Nat} (h : (Pool.pickFrom d used p).candidate = none) :
      Step total ⟨p, .drawing left (some (c, e)), calls⟩ (.draw d used)
        ⟨(Pool.pickFrom d used p).pool, .calling left c, calls⟩
  | exhausted {p : Pool} {calls : List (Call α)} {d : Draws} {left used : Nat}
      (h : (Pool.pickFrom d used p).candidate = none) :
      Step total ⟨p, .drawing left none, calls⟩ (.draw d used)
        ⟨(Pool.pickFrom d used p).pool, .ended (.error .poolExhausted), calls⟩
  | served {p : Pool} {c : Candidate} {calls : List (Call α)} {left : Nat} (a : α) :
      Step total ⟨p, .calling left c, calls⟩ (.answer (.ok a))
        ⟨p, .ended (.ok a), calls ++ [⟨c, .ok a⟩]⟩
  | failed {p : Pool} {c : Candidate} {calls : List (Call α)} {left : Nat} (e : Error) :
      Step total ⟨p, .calling left c, calls⟩ (.answer (.error e))
        ⟨p.recordFailure c, .resume total (some (c, e)) left, calls ++ [.failed (c, e)]⟩
  | other {p : Pool} {calls : List (Call α)} {stage : Stage α} (e : Pool.Event) :
      Step total ⟨p, stage, calls⟩ (.other e) ⟨p.act e, stage, calls⟩
  | early {w : Run α} {d : Draws} {used : Nat} (h : ∀ left last, w.stage ≠ .drawing left last) :
      Step total w (.draw d used) w
  | stray {w : Run α} {r : Except Error α} (h : ∀ left c, w.stage ≠ .calling left c) :
      Step total w (.answer r) w

variable {total : UInt32} {p : Pool} {c : Candidate} {w w' : Run α} {e : Event α}
  {events more : List (Event α)}

theorem step_draw (w : Run α) (d : Draws) (used : Nat) :
    Step total w (.draw d used) (w.next total (.draw d used)) := by
  obtain ⟨p, stage, calls⟩ := w
  cases stage with
  | drawing left last =>
    show Step total _ _ (Run.draw _ d used left last)
    simp only [Run.draw]
    rcases hpick : (Pool.pickFrom d used p).candidate with _ | c
    · rcases last with _ | ⟨c, e⟩
      · exact .exhausted hpick
      · exact .again hpick
    · exact .found hpick
  | calling left c => exact .early nofun
  | ended r => exact .early nofun

theorem step_answer (w : Run α) (r : Except Error α) :
    Step total w (.answer r) (w.next total (.answer r)) := by
  obtain ⟨p, stage, calls⟩ := w
  cases stage with
  | drawing left last => exact .stray nofun
  | calling left c =>
    cases r with
    | ok a => exact .served a
    | error e => exact .failed e
  | ended r' => exact .stray nofun

/-- Whatever happens is a step. -/
theorem step_next (w : Run α) (e : Event α) : Step total w e (w.next total e) := by
  cases e with
  | draw d used => exact step_draw w d used
  | answer r => exact step_answer w r
  | other e => exact .other e

/-- One more event is one more step. -/
theorem step_after (total : UInt32) (p : Pool) (events : List (Event α)) (e : Event α) :
    Step total (after total p events) e (after total p (events ++ [e])) := by
  rw [after, after, List.foldl_append]
  exact step_next _ e

/-! ### What is known of the calls -/

/-- The calls that go with a stage. -/
inductive Orderly (total : UInt32) : Stage α → List (Call α) → Prop
  | drawing {left : Nat} (fails : List (Candidate × Error))
      (h : fails.length + (left + 1) = total.toNat) :
      Orderly total (.drawing left fails.getLast?) (fails.map Call.failed)
  | calling {left : Nat} (fails : List (Candidate × Error)) (c : Candidate)
      (h : fails.length + (left + 1) = total.toNat) :
      Orderly total (.calling left c) (fails.map Call.failed)
  | served (fails : List (Candidate × Error)) (c : Candidate) (a : α)
      (h : fails.length < total.toNat) :
      Orderly total (.ended (.ok a)) (fails.map Call.failed ++ [⟨c, .ok a⟩])
  | spent (fails : List (Candidate × Error)) (c : Candidate) (e : Error)
      (h : fails.length + 1 = total.toNat) :
      Orderly total (.ended (.error (.retriesExhausted total e)))
        ((fails ++ [(c, e)]).map Call.failed)
  | exhausted : Orderly total (.ended (.error .poolExhausted)) []

theorem stage_start (hpos : 0 < total.toNat) (p : Pool) :
    ∃ left, (start total p : Run α).stage = .drawing left none ∧ left + 1 = total.toNat := by
  obtain ⟨left, hleft⟩ : ∃ left, total.toNat = left + 1 := Nat.exists_eq_add_one.mpr hpos
  refine ⟨left, ?_, hleft.symm⟩
  show Stage.resume total none total.toNat = _
  rw [hleft, Stage.resume]

theorem orderly_start (hpos : 0 < total.toNat) :
    Orderly total (start total p : Run α).stage [] := by
  obtain ⟨left, hstage, hleft⟩ := stage_start (α := α) hpos p
  rw [hstage]
  exact .drawing [] (by simpa using hleft)

/-- **A step keeps the calls in order.** -/
theorem Orderly.step (h : Orderly total w.stage w.calls) (hstep : Step total w e w') :
    Orderly total w'.stage w'.calls := by
  cases hstep with
  | found hpick =>
    cases h with
    | drawing fails hcount => exact .calling fails _ hcount
  | again hpick =>
    -- the stage holds the last failure itself, and the calls only as the last of a list
    generalize hlast : some _ = last at h
    cases h with
    | drawing fails hcount => exact .calling fails _ hcount
  | exhausted hpick =>
    generalize hlast : none = last at h
    cases h with
    | drawing fails hcount =>
      obtain rfl := List.getLast?_eq_none_iff.mp hlast.symm
      exact .exhausted
  | served a =>
    cases h with
    | calling fails c hcount => exact .served fails _ a (by omega)
  | @failed p c calls left e =>
    cases h with
    | calling fails _ hcount =>
      have hmore : (fails.map Call.failed ++ [Call.failed (c, e)] : List (Call α))
          = (fails ++ [(c, e)]).map Call.failed := by simp
      show Orderly total (.resume total (some (c, e)) left) (_ ++ [_])
      rw [hmore]
      cases left with
      | zero => exact .spent fails c e hcount
      | succ left =>
        have hlast : (fails ++ [(c, e)]).getLast? = some (c, e) := by simp
        rw [← hlast]
        refine .drawing _ ?_
        simp only [List.length_append, List.length_singleton]
        omega
  | other e => exact h
  | early _ => exact h
  | stray _ => exact h

theorem orderly_after (hpos : 0 < total.toNat) (events : List (Event α)) :
    Orderly total (after total p events).stage (after total p events).calls := by
  induction events using List.reverseRecOn with
  | nil => exact orderly_start hpos
  | append_singleton events e ih => exact ih.step (step_after total p events e)

/-- Never more are called than allowed. -/
theorem Orderly.length_called_le (h : Orderly total w.stage w.calls) :
    w.called.length ≤ total.toNat := by
  obtain ⟨p, stage, calls⟩ := w
  cases h with
  | drawing fails hcount => simp [Run.called]; omega
  | calling fails c hcount => simp [Run.called]; omega
  | served fails c a hcount => simp [Run.called]; omega
  | spent fails c e hcount => simp [Run.called]; omega
  | exhausted => simp [Run.called]

theorem Orderly.called_of_exhausted (h : Orderly total w.stage w.calls)
    (hended : w.stage = .ended (.error .poolExhausted)) : w.called = [] := by
  obtain ⟨p, stage, calls⟩ := w
  cases h with
  | exhausted => rfl
  | drawing fails hcount => cases hended
  | calling fails c hcount => cases hended
  | served fails c a hcount => cases hended
  | spent fails c e hcount => cases hended

/-- A request that succeeds has been given its result by a call. -/
theorem Orderly.exists_of_served (h : Orderly total w.stage w.calls) {a : α}
    (hended : w.stage = .ended (.ok a)) : ∃ c, ⟨c, .ok a⟩ ∈ w.calls := by
  obtain ⟨p, stage, calls⟩ := w
  cases h with
  | served fails c a' hcount =>
    cases hended
    exact ⟨c, List.mem_append_right _ List.mem_cons_self⟩
  | drawing fails hcount => cases hended
  | calling fails c hcount => cases hended
  | spent fails c e hcount => cases hended
  | exhausted => cases hended

/-- After a call that succeeded comes the end, and before it only failures. -/
theorem Orderly.first_success (h : Orderly total w.stage w.calls) {a : α}
    (hcall : ⟨c, .ok a⟩ ∈ w.calls) : w.stage = .ended (.ok a)
      ∧ ∃ fails : List (Candidate × Error), w.calls = fails.map Call.failed ++ [⟨c, .ok a⟩] := by
  obtain ⟨p, stage, calls⟩ := w
  cases h with
  | drawing fails hcount => exact absurd hcall Call.ok_not_mem
  | calling fails c' hcount => exact absurd hcall Call.ok_not_mem
  | served fails c' a' hcount =>
    have hlast := (List.mem_append.mp hcall).resolve_left Call.ok_not_mem
    cases List.mem_singleton.mp hlast
    exact ⟨rfl, fails, rfl⟩
  | spent fails c' e hcount => exact absurd hcall Call.ok_not_mem
  | exhausted => cases hcall

/-- When all calls have failed, as many were made as allowed, and the result tells
how the last of them has failed. -/
theorem Orderly.all_failed (h : Orderly total w.stage w.calls) {r : Except Error α}
    {fails : List (Candidate × Error)} {e : Error} (hended : w.stage = .ended r)
    (hcalls : w.calls = (fails ++ [(c, e)]).map Call.failed) :
    w.calls.length = total.toNat ∧ r = .error (.retriesExhausted total e) := by
  obtain ⟨p, stage, calls⟩ := w
  cases h with
  | drawing fails' hcount => cases hended
  | calling fails' c' hcount => cases hended
  | served fails' c' a hcount =>
    have hmem : ⟨c', .ok a⟩ ∈ (fails ++ [(c, e)]).map Call.failed := by
      rw [← hcalls]
      exact List.mem_append_right _ List.mem_cons_self
    exact absurd hmem Call.ok_not_mem
  | spent fails' c' e' hcount =>
    cases hended
    have hsame := (List.map_inj_right fun _ _ h => Call.failed_injective h).mp hcalls
    obtain ⟨-, hlast⟩ := List.append_inj' hsame rfl
    cases hlast
    exact ⟨by simp [hcount], rfl⟩
  | exhausted => simp at hcalls

/-! ### Who is called -/

theorem called_resume {last : Option (Candidate × Error)} {left : Nat} {calls : List (Call α)} :
    (⟨p, .resume total last left, calls⟩ : Run α).called = calls.map Call.candidate := by
  rcases left with _ | left
  · rcases last with _ | ⟨c, e⟩
    · exact List.append_nil _
    · exact List.append_nil _
  · exact List.append_nil _

/-- A step calls at most one more.  This is one that was called before, or it is
listed and has not failed. -/
theorem called_step (h : Orderly total w.stage w.calls) (hstep : Step total w e w') :
    w'.called = w.called ∨ ∃ c, w'.called = w.called ++ [c]
      ∧ (c ∈ w.called ∨ c ∈ w.pool.current.candidates ∧ w.pool.isHealthy c) := by
  cases hstep with
  | found hpick =>
    exact Or.inr ⟨_, by simp [Run.called], Or.inr (Pool.healthy_of_pickFrom hpick)⟩
  | @again p c calls e d left used hpick =>
    refine Or.inr ⟨c, by simp [Run.called], Or.inl ?_⟩
    generalize hlast : some (c, e) = last at h ⊢
    cases h with
    | drawing fails hcount =>
      have hmem : (c, e) ∈ fails := List.mem_of_getLast? hlast.symm
      refine List.mem_append_left _ ?_
      rw [List.map_map]
      exact List.mem_map_of_mem (f := Call.candidate ∘ Call.failed) hmem
  | exhausted hpick => exact Or.inl rfl
  | served a => exact Or.inl (by simp [Run.called])
  | failed e =>
    refine Or.inl ?_
    rw [called_resume]
    simp [Run.called, Call.failed]
  | other e => exact Or.inl rfl
  | early _ => exact Or.inl rfl
  | stray _ => exact Or.inl rfl

/-- At some moment a candidate was listed and had not failed. -/
def Met (total : UInt32) (p : Pool) (events : List (Event α)) (c : Candidate) : Prop :=
  ∃ before, before <+: events ∧ c ∈ (after total p before).pool.current.candidates
    ∧ (after total p before).pool.isHealthy c

theorem Met.append (h : Met total p events c) (more : List (Event α)) :
    Met total p (events ++ more) c := by
  obtain ⟨before, hbefore, hmet⟩ := h
  exact ⟨before, hbefore.trans (List.prefix_append ..), hmet⟩

theorem met_of_called (hpos : 0 < total.toNat) (h : c ∈ (after total p events).called) :
    Met total p events c := by
  induction events using List.reverseRecOn with
  | nil =>
    rw [after, List.foldl_nil, start, called_resume] at h
    cases h
  | append_singleton events e ih =>
    rcases called_step (orderly_after hpos events) (step_after total p events e) with
      hsame | ⟨c', hmore, hcalled⟩
    · rw [hsame] at h
      exact (ih h).append [e]
    · rw [hmore, List.mem_append, List.mem_singleton] at h
      rcases h with hold | rfl
      · exact (ih hold).append [e]
      · rcases hcalled with hold | hnow
        · exact (ih hold).append [e]
        · exact ⟨events, List.prefix_append .., hnow⟩

/-- Who was called stays called. -/
theorem called_prefix (hpos : 0 < total.toNat) (events more : List (Event α)) :
    (after total p events).called <+: (after total p (events ++ more)).called := by
  induction more using List.reverseRecOn with
  | nil => simp
  | append_singleton more e ih =>
    rw [← List.append_assoc]
    rcases called_step (orderly_after hpos (events ++ more)) (step_after total p _ e) with
      hsame | ⟨c, hmore, -⟩
    · rwa [hsame]
    · rw [hmore]
      exact ih.trans (List.prefix_append ..)

/-! ### Failures -/

/-- **A step records a failure** for each call that fails in it, and nothing else
but what others record. -/
theorem count_step (hstep : Step total w e w') :
    w'.pool.failed.count c + w.calls.countP (Call.blames c)
      = w.pool.failed.count c + w'.calls.countP (Call.blames c)
        + if e.blames c then 1 else 0 := by
  cases hstep with
  | found hpick => simp [Pool.pickFrom_failed, Event.blames]
  | again hpick => simp [Pool.pickFrom_failed, Event.blames]
  | exhausted hpick => simp [Pool.pickFrom_failed, Event.blames]
  | served a => simp [Event.blames, Call.blames]
  | failed e =>
    rw [Pool.count_recordFailure]
    simp [Event.blames, Call.blames, Call.failed]
    omega
  | other e =>
    rw [Pool.count_act]
    exact Nat.add_right_comm ..
  | early _ => simp [Event.blames]
  | stray _ => simp [Event.blames]

theorem count_after (c : Candidate) (events : List (Event α)) :
    (after total p events).pool.failed.count c
      = p.failed.count c + (after total p events).calls.countP (Call.blames c)
        + events.countP (Event.blames c) := by
  induction events using List.reverseRecOn with
  | nil => rfl
  | append_singleton events e ih =>
    have hstep := count_step (c := c) (step_after total p events e)
    rw [List.countP_append, List.countP_singleton]
    omega

/-! ### Ends -/

section Ended

variable {r : Except Error α}

theorem ended_step (h : w.stage = .ended r) (hstep : Step total w e w') :
    w'.stage = .ended r ∧ w'.calls = w.calls := by
  cases hstep with
  | found hpick => cases h
  | again hpick => cases h
  | exhausted hpick => cases h
  | served a => cases h
  | failed e => cases h
  | other e => exact ⟨h, rfl⟩
  | early _ => exact ⟨h, rfl⟩
  | stray _ => exact ⟨h, rfl⟩

/-- Nothing is called after the end, and the result stays. -/
theorem ended_append (h : (after total p events).stage = .ended r) (more : List (Event α)) :
    (after total p (events ++ more)).stage = .ended r
      ∧ (after total p (events ++ more)).calls = (after total p events).calls := by
  induction more using List.reverseRecOn with
  | nil =>
    rw [List.append_nil]
    exact ⟨h, rfl⟩
  | append_singleton more e ih =>
    rw [← List.append_assoc]
    obtain ⟨hstage, hcalls⟩ := ended_step ih.1 (step_after total p _ e)
    exact ⟨hstage, hcalls.trans ih.2⟩

end Ended

/-! ### The first draw -/

/-- The events before a draw and that draw, if it is the first one. -/
structure FirstDraw (events before : List (Event α)) (d : Draws) (used : Nat) : Prop where
  occurs : before ++ [.draw d used] <+: events
  first : ∀ e ∈ before, e.isDraw = false

theorem exists_firstDraw (events : List (Event α)) :
    (∀ e ∈ events, e.isDraw = false) ∨ ∃ before d used, FirstDraw events before d used := by
  induction events with
  | nil => exact Or.inl nofun
  | cons e events ih =>
    rcases he : e.isDraw with _ | _
    · rcases ih with hnone | ⟨before, d, used, hoccurs, hfirst⟩
      · exact Or.inl (List.forall_mem_cons.mpr ⟨he, hnone⟩)
      · exact Or.inr ⟨e :: before, d, used, (List.prefix_cons_inj e).mpr hoccurs,
          List.forall_mem_cons.mpr ⟨he, hfirst⟩⟩
    · cases e with
      | draw d used => exact Or.inr ⟨[], d, used, List.prefix_append [_] _, nofun⟩
      | answer r => cases he
      | other e => cases he

/-- Until it draws a request only waits. -/
theorem after_undrawn (hpos : 0 < total.toNat) (h : ∀ e ∈ events, e.isDraw = false) :
    ∃ left, (after total p events).stage = .drawing left none
      ∧ (after total p events).calls = [] := by
  induction events using List.reverseRecOn with
  | nil =>
    obtain ⟨left, hstage, -⟩ := stage_start (α := α) hpos p
    exact ⟨left, hstage, rfl⟩
  | append_singleton events e ih =>
    obtain ⟨left, hstage, hcalls⟩ := ih fun e' he' => h e' (List.mem_append_left _ he')
    have he : e.isDraw = false := h e (by simp)
    have hstep := step_after total p events e
    generalize after total p events = w at hstage hcalls hstep
    generalize after total p (events ++ [e]) = w' at hstep ⊢
    cases hstep with
    | found hpick => cases he
    | again hpick => cases he
    | exhausted hpick => cases he
    | served a => cases hstage
    | failed e => cases hstage
    | other e => exact ⟨left, hstage, hcalls⟩
    | early _ => exact ⟨left, hstage, hcalls⟩
    | stray _ => exact ⟨left, hstage, hcalls⟩

/-- What the first draw finds. -/
theorem after_firstDraw {before : List (Event α)} {d : Draws} {used : Nat} (hpos : 0 < total.toNat)
    (h : ∀ e ∈ before, e.isDraw = false) :
    let found := (Pool.pickFrom d used (after total p before).pool).candidate
    let w := after total p (before ++ [.draw d used])
    w.called = found.toList ∧ (found = none → w.stage = .ended (.error .poolExhausted)) := by
  obtain ⟨left, hstage, hcalls⟩ := after_undrawn (p := p) hpos h
  have hstep := step_after total p before (.draw d used)
  generalize after total p before = w at hstage hcalls hstep
  generalize after total p (before ++ [.draw d used]) = w' at hstep ⊢
  cases hstep with
  | found hpick =>
    obtain rfl := hcalls
    refine ⟨?_, fun hnone => ?_⟩
    · rw [hpick]
      rfl
    · rw [hpick] at hnone
      cases hnone
  | again hpick => cases hstage
  | exhausted hpick =>
    obtain rfl := hcalls
    rw [hpick]
    exact ⟨rfl, fun _ => rfl⟩
  | early hearly => exact absurd hstage (hearly left none)

/-- **The pool is exhausted** exactly if the first draw found nobody. -/
theorem exhausted_iff (hpos : 0 < total.toNat) :
    (after total p events).stage = .ended (.error .poolExhausted)
      ↔ ∃ before d used, FirstDraw events before d used
        ∧ (Pool.pickFrom d used (after total p before).pool).candidate = none := by
  constructor
  · intro hended
    rcases exists_firstDraw events with hnone | ⟨before, d, used, hdraw⟩
    · obtain ⟨left, hstage, -⟩ := after_undrawn (p := p) hpos hnone
      rw [hstage] at hended
      cases hended
    · refine ⟨before, d, used, hdraw, ?_⟩
      obtain ⟨more, rfl⟩ := hdraw.occurs
      -- whoever is drawn first is called, and then the end is another
      have hcalled := called_prefix (p := p) hpos (before ++ [.draw d used]) more
      rw [(after_firstDraw hpos hdraw.first).1] at hcalled
      rw [(orderly_after hpos _).called_of_exhausted hended, List.prefix_nil] at hcalled
      exact Option.toList_eq_nil_iff.mp hcalled
  · rintro ⟨before, d, used, hdraw, hnone⟩
    obtain ⟨more, rfl⟩ := hdraw.occurs
    exact (ended_append ((after_firstDraw hpos hdraw.first).2 hnone) more).1

/-! ### Accounts -/

/-- The account of a request after some events. -/
structure Accounted (total : UInt32) (p : Pool) (events : List (Event α)) (w : Run α) : Prop where
  /-- No more calls are made than allowed. -/
  bounded : w.called.length ≤ total.toNat
  /-- Who is called is a candidate of the pool. -/
  met : ∀ c ∈ w.called, Met total p events c
  /-- The request succeeds exactly if a call does, with what that call has given. -/
  served : ∀ a, w.stage = .ended (.ok a) ↔ ∃ c, ⟨c, .ok a⟩ ∈ w.calls
  /-- Only failures come before a call that succeeds, and nothing comes after it. -/
  first : ∀ c a, ⟨c, .ok a⟩ ∈ w.calls →
    ∃ fails : List (Candidate × Error), w.calls = fails.map Call.failed ++ [⟨c, .ok a⟩]
  /-- If every call has failed, as many were made as allowed, and the result tells how
  the last of them failed. -/
  spent : ∀ r fails c e, w.stage = .ended r → w.calls = (fails ++ [(c, e)]).map Call.failed →
    w.calls.length = total.toNat ∧ r = .error (.retriesExhausted total e)
  /-- The pool is exhausted exactly if the first draw found no listed candidate without
  failures. -/
  exhausted : w.stage = .ended (.error .poolExhausted) ↔
    ∃ before d used, FirstDraw events before d used ∧
      ∀ c ∈ (after total p before).pool.current.candidates,
        ¬ (after total p before).pool.isHealthy c
  /-- Then nothing is called. -/
  uncalled : w.stage = .ended (.error .poolExhausted) → w.called = []
  /-- What happens after the end changes neither the result nor the calls. -/
  final : ∀ r more, w.stage = .ended r → (after total p (events ++ more)).stage = .ended r
    ∧ (after total p (events ++ more)).calls = w.calls
  /-- Each call that fails adds one to the counter of the candidate it was made against,
  and so does each failure that others record. -/
  counted : ∀ c, w.pool.failures c = (p.failures c + w.calls.countP (Call.blames c)
    + events.countP (Event.blames c)) % Nat.pow 2 32

/-- **Requests keep their accounts,** whatever happens in whatever order. -/
theorem accounted_after (hpos : 0 < total.toNat) (events : List (Event α)) :
    Accounted total p events (after total p events) := by
  have horderly : Orderly total (after total p events).stage (after total p events).calls :=
    orderly_after hpos events
  constructor
  case bounded => exact horderly.length_called_le
  case met => exact fun c hc => met_of_called hpos hc
  case served =>
    intro a
    constructor
    · exact horderly.exists_of_served
    · rintro ⟨c, hcall⟩
      exact (horderly.first_success hcall).1
  case first => exact fun c a hcall => (horderly.first_success hcall).2
  case spent => exact fun r fails c e hended hcalls => horderly.all_failed hended hcalls
  case exhausted =>
    simp only [exhausted_iff hpos, Pool.candidate_eq_none_iff]
  case uncalled => exact fun hended => horderly.called_of_exhausted hended
  case final => exact fun r more hended => ended_append hended more
  case counted =>
    intro c
    rw [Pool.failures, count_after, Pool.failures, Nat.add_assoc, Nat.add_assoc, Nat.mod_add_mod]

/-! ### Requests at one stroke -/

/-- What a call comes to, what others do with the pool meanwhile, and the state it
leaves. -/
abbrev Behaviour (σ α : Type) := SocketAddr → Pool × σ → Except Error α × List Pool.Event × σ

/-- The attempts of a behaviour. -/
def Behaviour.attempt (b : Behaviour σ α) : Attempt σ α := fun addr (p, s) =>
  match b addr (p, s) with
  | (r, acts, s') => (r, (acts.foldl Pool.act p, s'))

/-- Attempts that note whom they call and what they hear. -/
def noting (op : Attempt σ α) : Attempt (σ × List (SocketAddr × Except Error α)) α :=
  fun addr (p, s, notes) =>
    match op addr (p, s) with
    | (r, p', s') => (r, (p', s', notes ++ [(addr, r)]))

/-- An outcome without the notes. -/
def Outcome.forget {τ : Type} (o : Outcome (σ × τ) α) : Outcome σ α :=
  ⟨o.result, o.pool, o.state.1, o.draws⟩

section Notes

variable {d : Draws} {op : Attempt σ α} {b : Behaviour σ α} {left used : Nat}
  {last : Option (Candidate × Error)} {s : σ} {calls : List (Call α)}

/-- Taking notes changes nothing. -/
theorem attempts_noting (notes : List (SocketAddr × Except Error α)) :
    (attempts d (noting op) total left used last p (s, notes)).forget
      = attempts d op total left used last p s := by
  induction left generalizing used last p s notes with
  | zero =>
    rcases last with _ | ⟨c, e⟩
    · rfl
    · rfl
  | succ left ih =>
    rcases hcandidate : (Pool.pickFrom d used p).candidate.or (last.map Prod.fst) with _ | c
    · rw [attempts_of_none hcandidate, attempts_of_none hcandidate]
      rfl
    · rcases hop : op c.addr ((Pool.pickFrom d used p).pool, s) with ⟨e | a, p', s'⟩
      · have hnoted : noting op c.addr ((Pool.pickFrom d used p).pool, (s, notes))
            = (.error e, (p', (s', notes ++ [(c.addr, .error e)]))) := by
          simp only [noting, hop]
        rw [attempts_of_error hcandidate hnoted, attempts_of_error hcandidate hop]
        exact ih _
      · have hnoted : noting op c.addr ((Pool.pickFrom d used p).pool, (s, notes))
            = (.ok a, (p', (s', notes ++ [(c.addr, .ok a)]))) := by
          simp only [noting, hop]
        rw [attempts_of_ok hcandidate hnoted, attempts_of_ok hcandidate hop]
        rfl

/-- Some events take a run to an outcome, and the notes are those of its calls. -/
def Comes (total : UInt32) (w : Run α) (o : Outcome (σ × List (SocketAddr × Except Error α)) α) :
    Prop :=
  ∃ events : List (Event α),
    let w' := events.foldl (Run.next total) w
    w'.stage = .ended o.result ∧ w'.pool = o.pool ∧ w'.calls.map Call.seen = o.state.2

variable {o : Outcome (σ × List (SocketAddr × Except Error α)) α}

theorem Comes.of_foldl (events : List (Event α))
    (h : Comes total (events.foldl (Run.next total) w) o) : Comes total w o := by
  obtain ⟨rest, h⟩ := h
  refine ⟨events ++ rest, ?_⟩
  rwa [List.foldl_append]

theorem foldl_other (acts : List Pool.Event) (stage : Stage α) :
    (acts.map Event.other).foldl (Run.next total) ⟨p, stage, calls⟩
      = ⟨acts.foldl Pool.act p, stage, calls⟩ := by
  induction acts generalizing p with
  | nil => rfl
  | cons e acts ih => exact ih

/-- While a call waits others act, and then it is answered. -/
theorem Comes.of_answer (acts : List Pool.Event) (r : Except Error α)
    (h : Comes total (Run.hear total ⟨acts.foldl Pool.act p, .calling left c, calls⟩ left c r) o) :
    Comes total ⟨p, .calling left c, calls⟩ o := by
  refine .of_foldl (acts.map .other ++ [.answer r]) ?_
  rw [List.foldl_append, foldl_other]
  exact h

/-- One attempt, if those that are left after it are taken as events too. -/
theorem comes_draw (hleft : ∀ {used : Nat} {last : Option (Candidate × Error)} {p : Pool} {s : σ}
      {calls : List (Call α)}, Comes total ⟨p, .resume total last left, calls⟩
        (attempts d (noting b.attempt) total left used last p (s, calls.map Call.seen))) :
    Comes total (Run.draw ⟨p, .drawing left last, calls⟩ d used left last)
      (attempts d (noting b.attempt) total (left + 1) used last p (s, calls.map Call.seen)) := by
  rcases hcandidate : (Pool.pickFrom d used p).candidate.or (last.map Prod.fst) with _ | c
  · rw [attempts_of_none hcandidate]
    exact ⟨[], by simp [Run.draw, hcandidate]⟩
  · have hdraw : Run.draw ⟨p, .drawing left last, calls⟩ d used left last
        = ⟨(Pool.pickFrom d used p).pool, .calling left c, calls⟩ := by
      simp only [Run.draw, hcandidate]
    rcases hb : b c.addr ((Pool.pickFrom d used p).pool, s) with ⟨r, acts, s'⟩
    have hop : noting b.attempt c.addr ((Pool.pickFrom d used p).pool, (s, calls.map Call.seen))
        = (r, (acts.foldl Pool.act (Pool.pickFrom d used p).pool,
          (s', calls.map Call.seen ++ [(c.addr, r)]))) := by
      simp only [noting, Behaviour.attempt, hb]
    have hnotes : calls.map Call.seen ++ [(c.addr, r)]
        = (calls ++ [(⟨c, r⟩ : Call α)]).map Call.seen := by
      simp [Call.seen]
    rw [hnotes] at hop
    rw [hdraw]
    refine .of_answer acts r ?_
    cases r with
    | ok a =>
      rw [attempts_of_ok hcandidate hop]
      exact ⟨[], rfl, rfl, rfl⟩
    | error e =>
      rw [attempts_of_error hcandidate hop]
      exact hleft

/-- **Attempts are events.** -/
theorem comes_attempts : Comes total ⟨p, .resume total last left, calls⟩
    (attempts d (noting b.attempt) total left used last p (s, calls.map Call.seen)) := by
  induction left generalizing used last p s calls with
  | zero =>
    rcases last with _ | ⟨c, e⟩
    · exact ⟨[], rfl, rfl, rfl⟩
    · exact ⟨[], rfl, rfl, rfl⟩
  | succ left ih => exact .of_foldl [.draw d used] (comes_draw ih)

end Notes

/-- **Attempts are accounted for exactly.**  At least one is allowed.  Whatever a
request and others do with a pool, in whatever order, the account of the request is
kept.  And a request that is carried out at one stroke, while during its calls others
do with the pool what they like, is such a run: it begins with its first draw, it comes
to the same result and leaves the same pool, and its calls are those that were made. -/
theorem execute_accounted (maxAttempts : UInt32) (p : Pool) :
    (allowed maxAttempts).toNat = max 1 maxAttempts.toNat
    ∧ (∀ events : List (Event α), Accounted (allowed maxAttempts) p events
      (after (allowed maxAttempts) p events))
    ∧ ∀ (b : Behaviour σ α) (d : Draws) (used : Nat) (s : σ),
      let o := execute d (noting b.attempt) maxAttempts used p (s, [])
      o.forget = execute d b.attempt maxAttempts used p s
      ∧ ∃ rest : List (Event α),
        let w := after (allowed maxAttempts) p (.draw d used :: rest)
        w.stage = .ended o.result ∧ w.pool = o.pool ∧ w.calls.map Call.seen = o.state.2 := by
  refine ⟨toNat_allowed maxAttempts, accounted_after allowed_pos, fun b d used s => ?_⟩
  refine ⟨attempts_noting [], ?_⟩
  obtain ⟨left, hleft⟩ : ∃ left, (allowed maxAttempts).toNat = left + 1 :=
    Nat.exists_eq_add_one.mpr allowed_pos
  obtain ⟨rest, hrest⟩ : Comes (allowed maxAttempts)
      (Run.draw ⟨p, .drawing left none, []⟩ d used left none)
      (attempts d (noting b.attempt) (allowed maxAttempts) (left + 1) used none p (s, [])) :=
    comes_draw comes_attempts
  refine ⟨rest, ?_⟩
  rw [execute, after, List.foldl_cons, start, hleft]
  exact hrest

end Balancer

end Rendezvous
