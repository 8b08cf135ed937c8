/-
Rendezvous/Proofs/Departure.lean

Departures.

A node that leaves first marks its own record and then makes a round.  Between
the two its record says that it has left, with the heartbeat that it had while
it stayed.  A round beats before it gives the record away, an answer to another
agent does not:

    own record                  given away by
    heartbeat 4, staying        an answer or a round
    heartbeat 4, left           an answer
    heartbeat 5, left           the round of the departure

An agent that gets the second after the first keeps the first, so a departure
can be masked (`departure_masked`).  Nothing else goes wrong: no departure has
a smaller heartbeat than a record that says the node stays, the departure that
is announced by a round has a larger one, and all have unless an agent slips in
the way above (`departure_prevails_iff`).
-/
import Rendezvous.Proofs.Convergence
import Rendezvous.Proofs.Gossip

namespace Rendezvous.Gossip.Network

variable {ι : Type} [DecidableEq ι] {hosts : ι → Host} {events p q : List (Event ι)}

/-! ### Leaving for good -/

/-- A node that has left does not come back. -/
theorem Turn.left {a b : Agent} (h : Turn a b) (ha : a.own.left = true) : b.own.left = true := by
  cases h with
  | merge time l =>
    rw [Agent.own_merge]
    exact ha
  | markLeft => rfl
  | idle | publish | beat | stop => exact ha

theorem left_run (n : Network ι) (events : List (Event ι)) (i : ι)
    (h : (n.agents i).own.left = true) : ((n.run events).agents i).own.left = true :=
  run_induction (R := fun a b => a.own.left = true → b.own.left = true) (fun _ => id)
    (fun hab hbc => hbc ∘ hab) Turn.left n events i h

/-- Of two times of a run the one at which a node stays comes first. -/
theorem prefix_of_left {n : Network ι} {i : ι} (hp : p <+: events) (hq : q <+: events)
    (hleft : ((n.run p).agents i).own.left = true)
    (hstay : ((n.run q).agents i).own.left = false) : q <+: p := by
  rcases List.prefix_or_prefix_of_prefix hp hq with ⟨more, rfl⟩ | hqp
  · rw [run_append, left_run _ _ _ hleft] at hstay
    cases hstay
  · exact hqp

/-- A departure is not older than a record from before. -/
theorem heartbeat_le_of_left {n : Network ι} {i : ι} (hp : p <+: events) (hq : q <+: events)
    (hleft : ((n.run p).agents i).own.left = true)
    (hstay : ((n.run q).agents i).own.left = false) :
    ((n.run q).agents i).own.heartbeat ≤ ((n.run p).agents i).own.heartbeat :=
  (succeeds_along (prefix_of_left hp hq hleft hstay) n i).heartbeat

/-- A round announces the departure with a heartbeat that is new. -/
theorem heartbeat_lt_of_send {n : Network ι} {i : ι} (hp : p ++ [.send i] <+: events)
    (hq : q <+: events) (hleft : ((n.run (p ++ [.send i])).agents i).own.left = true)
    (hstay : ((n.run q).agents i).own.left = false) :
    ((n.run q).agents i).own.heartbeat < ((n.run (p ++ [.send i])).agents i).own.heartbeat := by
  have hsend : (n.run (p ++ [.send i])).agents i = ((n.run p).agents i).beat := by
    rw [run_append]
    exact agents_send _ i
  rw [hsend] at hleft ⊢
  -- the mark was there before the beat
  exact Nat.lt_succ_of_le
    (heartbeat_le_of_left ((List.prefix_append ..).trans hp) hq hleft hstay)

/-! ### Records that are given away -/

theorem run_concat (n : Network ι) (p : List (Event ι)) (e : Event ι) :
    n.run (p ++ [e]) = (n.run p).step e :=
  run_append n p [e]

/-- Whatever an event gives away is held from then on. -/
theorem GivesAway.holds {n : Network ι} {e : Event ι} {r : MemberRecord} (h : GivesAway n e r) :
    (n.step e).Holds r := by
  cases h with
  | send i =>
    rw [agents_send]
    refine Holds.request (m := ⟨i, (n.agents i).beat.records⟩) ?_ ?_
    · exact List.mem_append_right _ (List.mem_singleton_self _)
    · exact List.mem_append_right _ (List.mem_singleton_self _)
  | @answer k d hd =>
    rw [agents_answer]
    refine Holds.reply (m := ⟨d.client, d.others ++ [(n.agents d.server).own]⟩) ?_ ?_
    · rw [step, hd]
      exact List.mem_append_right _ (List.mem_singleton_self _)
    · exact List.mem_append_right _ (List.mem_singleton_self _)

/-- An agent gives its record away with a new heartbeat or with the one it had
before. -/
theorem GivesAway.send_or_answer {n : Network ι} {e : Event ι} {r : MemberRecord}
    (h : GivesAway n e r) : (∃ i, e = .send i ∧ r = ((n.step (.send i)).agents i).own)
      ∨ ∃ k i, e = .answer k ∧ r = (n.agents i).own := by
  cases h with
  | send i => exact Or.inl ⟨i, rfl, rfl⟩
  | @answer k d _ =>
    rw [agents_answer]
    exact Or.inr ⟨k, d.server, rfl, rfl⟩

theorem own_of_givesAway {e : Event ι} {r : MemberRecord}
    (h : GivesAway ((start hosts).run p) e r) :
    ∃ i, r = (((start hosts).run (p ++ [e])).agents i).own := by
  rw [run_concat]
  exact h.own

/-! ### Slips -/

/-- An agent slips if it gives the same heartbeat away twice, first as that of a
node that stays and then, by an answer, as that of a node that has left. -/
def Slips (hosts : ι → Host) (events : List (Event ι)) : Prop :=
  ∃ q e r' p k r, q ++ [e] <+: p ∧ p ++ [.answer k] <+: events
    ∧ GivesAway ((start hosts).run q) e r' ∧ GivesAway ((start hosts).run p) (.answer k) r
    ∧ r'.name = r.name ∧ r'.left = false ∧ r.left = true ∧ r'.heartbeat = r.heartbeat

/-- Departures prevail in a run. -/
structure Prevails (hosts : ι → Host) (events : List (Event ι)) : Prop where
  /-- Of two records of one node, found in tables or messages at whatever times,
  one that says that the node has left has the larger heartbeat. -/
  later : ∀ p q r r', p <+: events → q <+: events →
    ((start hosts).run p).Holds r → ((start hosts).run q).Holds r' → r.name = r'.name →
    r.left = true → r'.left = false → r'.heartbeat < r.heartbeat
  /-- An agent that merges a departure, or has done so, among whatever records
  and in whatever order, knows that the node has left. -/
  preferred : ∀ p j r time l, p <+: events → ((start hosts).run p).Holds r → r.left = true →
    r.name ≠ (hosts j).name → (∀ x ∈ l, ((start hosts).run p).Holds x) →
    (r ∈ l ∨ r ∈ (((start hosts).run p).agents j).others) →
    ∃ s, ((((start hosts).run p).agents j).merge time l).record? r.name = some s
      ∧ s.left = true

/-- What is always true of departures, and when they prevail. -/
structure Departs (hosts : ι → Host) (events : List (Event ι)) : Prop where
  /-- No departure has a smaller heartbeat than a record of a node that stays. -/
  notOlder : ∀ p q r r', p <+: events → q <+: events →
    ((start hosts).run p).Holds r → ((start hosts).run q).Holds r' → r.name = r'.name →
    r.left = true → r'.left = false → r'.heartbeat ≤ r.heartbeat
  /-- One that is announced by a round has a larger one. -/
  announced : ∀ p q i r', p ++ [.send i] <+: events → q <+: events →
    (((start hosts).run (p ++ [.send i])).agents i).own.left = true →
    ((start hosts).run q).Holds r' → r'.name = (hosts i).name → r'.left = false →
    r'.heartbeat < (((start hosts).run (p ++ [.send i])).agents i).own.heartbeat
  /-- All have, whatever is merged, unless an agent slips. -/
  prevails : Prevails hosts events ↔ ¬ Slips hosts events

/-- A slip puts both records into messages, so departures do not prevail. -/
theorem not_prevails_of_slips (h : Slips hosts events) : ¬ Prevails hosts events := by
  obtain ⟨q, e, r', p, k, r, hqp, hp, hgive', hgive, hname, hstay, hleft, htie⟩ := h
  intro hprevails
  have hpe : p <+: events := (List.prefix_append ..).trans hp
  have hheld : ((start hosts).run (p ++ [.answer k])).Holds r := by
    rw [run_concat]
    exact hgive.holds
  have hheld' : ((start hosts).run (q ++ [e])).Holds r' := by
    rw [run_concat]
    exact hgive'.holds
  have hlt : r'.heartbeat < r.heartbeat :=
    hprevails.later _ _ r r' hp (hqp.trans hpe) hheld hheld' hname.symm hleft hstay
  omega

/-- No departure is older than a record of a node that stays. -/
theorem heartbeat_le_of_holds (hnames : Function.Injective fun i => (hosts i).name)
    {r r' : MemberRecord} (hp : p <+: events) (hq : q <+: events)
    (hheld : ((start hosts).run p).Holds r) (hheld' : ((start hosts).run q).Holds r')
    (hname : r.name = r'.name) (hleft : r.left = true) (hstay : r'.left = false) :
    r'.heartbeat ≤ r.heartbeat := by
  obtain ⟨i, p₁, hp₁, rfl⟩ := holds_run hheld
  obtain ⟨j, q₁, hq₁, rfl⟩ := holds_run hheld'
  -- both are own records, and of one agent
  obtain rfl := eq_of_own_name hnames (hname.trans (own_run (start hosts) q₁ j).name)
  exact heartbeat_le_of_left (hp₁.trans hp) (hq₁.trans hq) hleft hstay

/-- A round announces the departure with a heartbeat that no record of the node
had while it stayed. -/
theorem heartbeat_lt_of_announced (hnames : Function.Injective fun i => (hosts i).name)
    {i : ι} {r' : MemberRecord} (hp : p ++ [.send i] <+: events) (hq : q <+: events)
    (hleft : (((start hosts).run (p ++ [.send i])).agents i).own.left = true)
    (hheld' : ((start hosts).run q).Holds r') (hname : r'.name = (hosts i).name)
    (hstay : r'.left = false) :
    r'.heartbeat < (((start hosts).run (p ++ [.send i])).agents i).own.heartbeat := by
  obtain ⟨j, q₁, hq₁, rfl⟩ := holds_run hheld'
  obtain rfl := eq_of_own_name hnames hname
  exact heartbeat_lt_of_send hp (hq₁.trans hq) hleft hstay

/-- Unless an agent slips, every departure has a heartbeat that no record of the
node had while it stayed. -/
theorem heartbeat_lt_of_not_slips (hnames : Function.Injective fun i => (hosts i).name)
    (hslips : ¬ Slips hosts events) {r r' : MemberRecord} (hp : p <+: events)
    (hq : q <+: events) (hheld : ((start hosts).run p).Holds r)
    (hheld' : ((start hosts).run q).Holds r') (hname : r.name = r'.name)
    (hleft : r.left = true) (hstay : r'.left = false) : r'.heartbeat < r.heartbeat := by
  obtain ⟨p₁, e, hp₁, hgive⟩ := givesAway_of_holds hheld
  rcases hgive.send_or_answer with ⟨i, rfl, rfl⟩ | ⟨k, i, rfl, rfl⟩
  · rw [← run_concat] at hname hleft ⊢
    have hown : r'.name = (hosts i).name :=
      hname.symm.trans (own_run (start hosts) (p₁ ++ [.send i]) i).name
    exact heartbeat_lt_of_announced hnames (hp₁.trans hp) hq hleft hheld' hown hstay
  · have hle : r'.heartbeat ≤ _ :=
      heartbeat_le_of_holds hnames hp hq hheld hheld' hname hleft hstay
    refine Nat.lt_of_le_of_ne hle fun htie => hslips ?_
    -- the node had that heartbeat when it stayed, so the answer is a slip
    obtain ⟨q₁, e', hq₁, hgive'⟩ := givesAway_of_holds hheld'
    obtain ⟨j, hj⟩ := own_of_givesAway hgive'
    have hown : r'.name = (hosts j).name := by
      rw [hj]
      exact (own_run (start hosts) (q₁ ++ [e']) j).name
    obtain rfl := eq_of_own_name hnames (hname.trans hown)
    have hbefore : q₁ ++ [e'] <+: p₁ :=
      prefix_of_left (((List.prefix_append ..).trans hp₁).trans hp) (hq₁.trans hq) hleft
        (hj ▸ hstay)
    exact ⟨q₁, e', r', p₁, k, _, hbefore, hp₁.trans hp, hgive', hgive, hname.symm, hstay, hleft,
      htie⟩

/-- If departures have the larger heartbeats, merging prefers them. -/
theorem left_merge {j : ι} {r : MemberRecord} {l : List MemberRecord} (time : Nat)
    (hlater : ∀ r', ((start hosts).run p).Holds r' → r.name = r'.name → r'.left = false →
      r'.heartbeat < r.heartbeat)
    (hname : r.name ≠ (hosts j).name) (hl : ∀ x ∈ l, ((start hosts).run p).Holds x)
    (hr : r ∈ l ∨ r ∈ (((start hosts).run p).agents j).others) :
    ∃ s, ((((start hosts).run p).agents j).merge time l).record? r.name = some s
      ∧ s.left = true := by
  have hother : r.name ≠ (((start hosts).run p).agents j).name := by
    rw [Agent.name, (own_run (start hosts) p j).name]
    exact hname
  have hkeyed : (((start hosts).run p).agents j).Keyed := keyed_run (start hosts) p j nofun
  have hknown : ∀ {s}, (((start hosts).run p).agents j).record? r.name = some s →
      ((start hosts).run p).Holds s ∧ s.name = r.name := by
    intro s hs
    obtain ⟨t, ht, rfl⟩ := Option.map_eq_some_iff.mp hs
    exact ⟨Holds.table (Agent.mem_others_iff.mpr ⟨_, t, ht, rfl⟩), hkeyed _ t ht⟩
  have hoffered : (((start hosts).run p).agents j).record? r.name = some r
      ∨ r ∈ l ∧ r.name = r.name := by
    rcases hr with hmem | hmem
    · exact Or.inr ⟨hmem, rfl⟩
    · obtain ⟨k, t, ht, rfl⟩ := Agent.mem_others_iff.mp hmem
      obtain rfl := hkeyed k t ht
      exact Or.inl (congrArg (Option.map Sighting.record) ht)
  have hnewest : Agent.Newest _
      (((((start hosts).run p).agents j).merge time l).record? r.name) :=
    Agent.newest_merge hother (Agent.newest_record? _ r.name)
  rcases hs : ((((start hosts).run p).agents j).merge time l).record? r.name with _ | s
  · rw [hs] at hnewest
    exact absurd hoffered (hnewest r)
  · rw [hs] at hnewest
    refine ⟨s, rfl, ?_⟩
    obtain ⟨hheld, hsame⟩ : ((start hosts).run p).Holds s ∧ s.name = r.name := by
      rcases hnewest.1 with hold | ⟨hmem, hsame⟩
      · exact hknown hold
      · exact ⟨hl s hmem, hsame⟩
    -- a record of a node that stays would be older than the departure
    by_contra hstay
    have hlt := hlater s hheld hsame.symm (Bool.eq_false_iff.mpr hstay)
    exact Nat.not_lt_of_le (hnewest.2 r hoffered) hlt

/-- **Departures prevail unless an agent slips.**  In no run is a departure
older than a record from before it, and once it is announced by a round it is
newer. -/
theorem run_departs (hnames : Function.Injective fun i => (hosts i).name)
    (events : List (Event ι)) : Departs hosts events where
  notOlder := fun _ _ _ _ => heartbeat_le_of_holds hnames
  announced := fun _ _ _ _ => heartbeat_lt_of_announced hnames
  prevails := by
    refine ⟨fun hprevails hslips => not_prevails_of_slips hslips hprevails, fun hslips => ?_⟩
    constructor
    · intro p q r r'
      exact heartbeat_lt_of_not_slips hnames hslips
    · intro p j r time l hp hheld hleft hname hl hr
      refine left_merge time (fun r' hheld' hsame hstay => ?_) hname hl hr
      exact heartbeat_lt_of_not_slips hnames hslips hp hp hheld hheld' hsame hleft hstay

theorem couple_names : Function.Injective fun i => (couple i).name := by
  rintro (_ | _) (_ | _) h
  · rfl
  · exact absurd h (by decide)
  · exact absurd h (by decide)
  · rfl

/-- The first node leaves while nobody waits for an answer of it. -/
theorem run_departs_couple : Departs couple
      [.send true, .serve false 0 5, .markLeft true, .send true, .serve false 1 6, .stop true]
    ∧ Prevails couple
      [.send true, .serve false 0 5, .markLeft true, .send true, .serve false 1 6, .stop true] := by
  have hdeparts := run_departs couple_names
    [.send true, .serve false 0 5, .markLeft true, .send true, .serve false 1 6, .stop true]
  refine ⟨hdeparts, hdeparts.prevails.mpr ?_⟩
  -- where there is no answer there is no slip
  rintro ⟨q, e, r', p, k, r, -, hp, -⟩
  have hanswer := hp.subset (List.mem_append_right p (List.mem_singleton_self _))
  simp at hanswer

/-- The second node asks the first twice, and gets the second answer when the
first has just marked its record. -/
def slipping : List (Event Bool) :=
  [.send false, .serve true 0 1, .gather 0, .answer 0, .collect 0 2,
    .send false, .serve true 1 3, .gather 1, .markLeft true, .answer 1, .collect 1 4,
    .send true, .stop true]

/-- **A departure can be masked** by a record from before it. -/
theorem departure_masked :
    (Function.Injective fun i => (couple i).name) ∧ ¬ Prevails couple slipping := by
  refine ⟨couple_names, not_prevails_of_slips ?_⟩
  refine ⟨slipping.take 3, .answer 0, _, slipping.take 9, 1, _, ⟨slipping.drop 4 |>.take 5, rfl⟩,
    ⟨slipping.drop 10, rfl⟩, GivesAway.answer (d := ⟨⟨true, false⟩, _⟩) rfl,
    GivesAway.answer (d := ⟨⟨true, false⟩, _⟩) rfl, rfl, rfl, rfl, rfl⟩

/-- The second node goes on believing that the first stays. -/
example : ((((start couple).run slipping).agents false).record? "a").map MemberRecord.left
    = some false := by
  rfl

end Rendezvous.Gossip.Network
