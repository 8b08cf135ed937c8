/-
Rendezvous/Proofs/Gossip.lean

What gossip does to the records of nodes.

Along every run of a network, what tables and messages hold are records that
their own nodes once had (`holds_run`), and a node changes its tags with a beat
only (`own_run`).  So nothing is invented and nothing rolled back
(`run_faithful`).
-/
import Mathlib.Data.List.Induction
import Rendezvous.Proofs.Network

namespace Rendezvous.Gossip.Network

variable {ι : Type} [DecidableEq ι]

/-! ### The own record -/

/-- A later record of a node: it has the addresses of the earlier one, no
smaller heartbeat, and with the same heartbeat the same tags. -/
structure Succeeds (r r' : MemberRecord) : Prop where
  name : r'.name = r.name
  addr : r'.addr = r.addr
  agentAddr : r'.agentAddr = r.agentAddr
  heartbeat : r.heartbeat ≤ r'.heartbeat
  tags : r'.heartbeat = r.heartbeat → r'.tags = r.tags

theorem Succeeds.refl (r : MemberRecord) : Succeeds r r :=
  ⟨rfl, rfl, rfl, Nat.le_refl _, fun _ => rfl⟩

theorem Succeeds.trans {r r' r'' : MemberRecord} (h : Succeeds r r') (h' : Succeeds r' r'') :
    Succeeds r r'' where
  name := h'.name.trans h.name
  addr := h'.addr.trans h.addr
  agentAddr := h'.agentAddr.trans h.agentAddr
  heartbeat := Nat.le_trans h.heartbeat h'.heartbeat
  tags := by
    intro heq
    -- the record between them has the same heartbeat
    have hle := h.heartbeat
    have hle' := h'.heartbeat
    have hmid : r'.heartbeat = r.heartbeat := by omega
    exact (h'.tags (heq.trans hmid.symm)).trans (h.tags hmid)

/-- Tags change with a beat only. -/
theorem Turn.succeeds {a b : Agent} (h : Turn a b) : Succeeds a.own b.own := by
  cases h with
  | idle => exact Succeeds.refl _
  | publish tags =>
    -- new tags come with a new heartbeat
    exact ⟨rfl, rfl, rfl, Nat.le_succ _, fun heq => absurd heq (Nat.succ_ne_self _)⟩
  | markLeft => exact ⟨rfl, rfl, rfl, Nat.le_refl _, fun _ => rfl⟩
  | beat => exact ⟨rfl, rfl, rfl, Nat.le_succ _, fun _ => rfl⟩
  | merge time l =>
    rw [Agent.own_merge]
    exact Succeeds.refl _
  | stop => exact Succeeds.refl _

theorem Turn.heartbeat_le {a b : Agent} (h : Turn a b) :
    b.own.heartbeat ≤ a.own.heartbeat + 1 := by
  cases h with
  | publish | beat => exact Nat.le_refl _
  | merge time l =>
    rw [Agent.own_merge]
    exact Nat.le_succ _
  | idle | markLeft | stop => exact Nat.le_succ _

/-- Only merging changes the table. -/
theorem Turn.older {a b : Agent} (h : Turn a b) : Agent.Older a b := by
  cases h with
  | merge time l => exact Agent.older_merge time a l
  | idle | publish | markLeft | beat | stop => exact Agent.Older.refl a

/-- The table goes on to have each record under its own name. -/
theorem Turn.keyed {a b : Agent} (h : Turn a b) (ha : a.Keyed) : b.Keyed := by
  cases h with
  | merge time l => exact Agent.keyed_merge time ha l
  | idle | publish | markLeft | beat | stop => exact ha

/-- Along a run the own record of an agent only moves on. -/
theorem own_run (n : Network ι) (events : List (Event ι)) (i : ι) :
    Succeeds (n.agents i).own ((n.run events).agents i).own :=
  run_induction (R := fun a b => Succeeds a.own b.own) (fun _ => Succeeds.refl _)
    Succeeds.trans Turn.succeeds n events i

/-- Along a run no agent goes back to an older record of any node. -/
theorem older_run (n : Network ι) (events : List (Event ι)) (i : ι) :
    Agent.Older (n.agents i) ((n.run events).agents i) :=
  run_induction (R := Agent.Older) Agent.Older.refl Agent.Older.trans Turn.older n events i

/-- Along a run each record stays under its own name. -/
theorem keyed_run (n : Network ι) (events : List (Event ι)) (i : ι)
    (h : (n.agents i).Keyed) : ((n.run events).agents i).Keyed :=
  run_induction (R := fun a b => a.Keyed → b.Keyed) (fun _ => id) (fun hab hbc => hbc ∘ hab)
    Turn.keyed n events i h

/-! ### Records in tables and messages -/

/-- An agent in place of another holds nothing new if its table does not. -/
theorem Holds.of_set {n : Network ι} {i : ι} {a : Agent} {r : MemberRecord}
    (h : (n.set i a).Holds r) (ha : ∀ q ∈ a.others, n.Holds q) : n.Holds r := by
  cases h with
  | table hr =>
    -- it is the table of the new agent or one that was there
    rename_i j
    rw [agents_set] at hr
    split at hr
    · exact ha r hr
    · exact Holds.table hr
  | request hm hr => exact Holds.request hm hr
  | draft hd hr => exact Holds.draft hd hr
  | reply hm hr => exact Holds.reply hm hr

omit [DecidableEq ι] in
/-- Merging records that are held leaves a table of records that are held. -/
theorem Holds.of_merge {n : Network ι} {i : ι} {l : List MemberRecord} (time : Nat)
    (hl : ∀ r ∈ l, n.Holds r) : ∀ q ∈ ((n.agents i).merge time l).others, n.Holds q := by
  intro q hq
  rcases Agent.mem_others_merge hq with hold | hnew
  · exact Holds.table hold
  · exact hl q hnew

theorem holds_publish {n : Network ι} {i : ι} {node : String} {tags : TagSet} {r : MemberRecord}
    (h : (n.step (.publish i node tags)).Holds r) : n.Holds r := by
  refine Holds.of_set h fun q hq => Holds.table (i := i) ?_
  -- be they taken or refused, tags leave the table alone
  by_cases hname : node = (n.agents i).name
  · rw [Agent.publishTags_own hname] at hq
    exact hq
  · rw [Agent.publishTags_other hname] at hq
    exact hq

/-- A request brings the own record of its sender out. -/
theorem holds_send {n : Network ι} {i : ι} {r : MemberRecord}
    (h : (n.step (.send i)).Holds r) :
    n.Holds r ∨ r = ((n.step (.send i)).agents i).own := by
  rw [agents_send]
  cases h with
  | table hr =>
    have hset : (n.set i (n.agents i).beat).Holds r := Holds.table hr
    exact Or.inl (hset.of_set fun q hq => Holds.table (i := i) hq)
  | request hm hr =>
    rcases List.mem_append.mp hm with hold | hnew
    · exact Or.inl (Holds.request hold hr)
    · -- the table and, behind it, the own record
      rw [List.mem_singleton.mp hnew] at hr
      rcases List.mem_append.mp hr with hothers | hself
      · exact Or.inl (Holds.table (i := i) hothers)
      · exact Or.inr (List.mem_singleton.mp hself)
  | draft hd hr => exact Or.inl (Holds.draft hd hr)
  | reply hm hr => exact Or.inl (Holds.reply hm hr)

theorem holds_serve {n : Network ι} {i : ι} {k time : Nat} {r : MemberRecord}
    (h : (n.step (.serve i k time)).Holds r) : n.Holds r := by
  rw [step] at h
  rcases hk : n.requests[k]? with _ | m
  · rw [hk] at h
    exact h
  · rw [hk] at h
    have hrecords : ∀ q ∈ m.records, n.Holds q := fun q hq =>
      Holds.request (List.mem_of_getElem? hk) hq
    cases h with
    | table hr =>
      have hset : (n.set i ((n.agents i).merge time m.records)).Holds r := Holds.table hr
      exact hset.of_set (Holds.of_merge time hrecords)
    | request hm hr => exact Holds.request hm hr
    | draft hd hr => exact Holds.draft hd hr
    | reply hm hr => exact Holds.reply hm hr

theorem holds_gather {n : Network ι} {k : Nat} {r : MemberRecord}
    (h : (n.step (.gather k)).Holds r) : n.Holds r := by
  rw [step] at h
  rcases hk : n.handlers[k]? with _ | handler
  · rw [hk] at h
    exact h
  · rw [hk] at h
    cases h with
    | table hr => exact Holds.table hr
    | request hm hr => exact Holds.request hm hr
    | draft hd hr =>
      rcases List.mem_append.mp hd with hold | hnew
      · exact Holds.draft hold hr
      · rw [List.mem_singleton.mp hnew] at hr
        exact Holds.table hr
    | reply hm hr => exact Holds.reply hm hr

/-- A reply brings the own record of the server out. -/
theorem holds_answer {n : Network ι} {k : Nat} {r : MemberRecord}
    (h : (n.step (.answer k)).Holds r) :
    n.Holds r ∨ ∃ d, n.drafts[k]? = some d ∧ r = ((n.step (.answer k)).agents d.server).own := by
  rw [agents_answer]
  rw [step] at h
  rcases hk : n.drafts[k]? with _ | d
  · rw [hk] at h
    exact Or.inl h
  · rw [hk] at h
    cases h with
    | table hr => exact Or.inl (Holds.table hr)
    | request hm hr => exact Or.inl (Holds.request hm hr)
    | draft hd hr => exact Or.inl (Holds.draft hd hr)
    | reply hm hr =>
      rcases List.mem_append.mp hm with hold | hnew
      · exact Or.inl (Holds.reply hold hr)
      · -- the draft and, behind it, the own record as it is by now
        rw [List.mem_singleton.mp hnew] at hr
        rcases List.mem_append.mp hr with hothers | hself
        · exact Or.inl (Holds.draft (List.mem_of_getElem? hk) hothers)
        · exact Or.inr ⟨d, rfl, List.mem_singleton.mp hself⟩

theorem holds_collect {n : Network ι} {k time : Nat} {r : MemberRecord}
    (h : (n.step (.collect k time)).Holds r) : n.Holds r := by
  rw [step] at h
  rcases hk : n.replies[k]? with _ | m
  · rw [hk] at h
    exact h
  · rw [hk] at h
    have hrecords : ∀ q ∈ m.records, n.Holds q := fun q hq =>
      Holds.reply (List.mem_of_getElem? hk) hq
    exact h.of_set (Holds.of_merge time hrecords)

/-- An event gives a record away: the own record of an agent, as it is then. -/
inductive GivesAway (n : Network ι) : Event ι → MemberRecord → Prop
  | send (i : ι) : GivesAway n (.send i) ((n.step (.send i)).agents i).own
  | answer {k : Nat} {d : Draft ι} (h : n.drafts[k]? = some d) :
      GivesAway n (.answer k) ((n.step (.answer k)).agents d.server).own

theorem GivesAway.own {n : Network ι} {e : Event ι} {r : MemberRecord} (h : GivesAway n e r) :
    ∃ i, r = ((n.step e).agents i).own := by
  cases h with
  | send i => exact ⟨i, rfl⟩
  | @answer k d _ => exact ⟨d.server, rfl⟩

/-- **Only records that are given away are new** in tables and messages. -/
theorem holds_step {n : Network ι} {e : Event ι} {r : MemberRecord} (h : (n.step e).Holds r) :
    n.Holds r ∨ GivesAway n e r := by
  cases e with
  | publish i node tags => exact Or.inl (holds_publish h)
  | markLeft i => exact Or.inl (Holds.of_set h fun q hq => Holds.table (i := i) hq)
  | send i =>
    refine (holds_send h).imp_right ?_
    rintro rfl
    exact GivesAway.send i
  | serve i k time => exact Or.inl (holds_serve h)
  | gather k => exact Or.inl (holds_gather h)
  | answer k =>
    refine (holds_answer h).imp_right ?_
    rintro ⟨d, hd, rfl⟩
    exact GivesAway.answer hd
  | collect k time => exact Or.inl (holds_collect h)
  | stop i => exact Or.inl (Holds.of_set h fun q hq => Holds.table (i := i) hq)

/-! ### Runs -/

variable {hosts : ι → Host}

omit [DecidableEq ι] in
/-- At the start there are no records but the own ones. -/
theorem not_holds_start (r : MemberRecord) : ¬ (start hosts).Holds r := by
  intro h
  cases h with
  | table hr => cases hr
  | request hm _ => cases hm
  | draft hd _ => cases hd
  | reply hm _ => cases hm

/-- Every record in a table or message has been given away in the run. -/
theorem givesAway_of_holds {events : List (Event ι)} {r : MemberRecord}
    (h : ((start hosts).run events).Holds r) :
    ∃ p e, p ++ [e] <+: events ∧ GivesAway ((start hosts).run p) e r := by
  induction events using List.reverseRecOn with
  | nil => exact absurd h (not_holds_start r)
  | append_singleton before e ih =>
    have hstep : (start hosts).run (before ++ [e]) = ((start hosts).run before).step e :=
      run_append _ _ _
    rw [hstep] at h
    -- what is held now was held before or is given away now
    rcases holds_step h with hold | hnew
    · obtain ⟨p, e', hp, hgive⟩ := ih hold
      exact ⟨p, e', hp.trans (List.prefix_append ..), hgive⟩
    · exact ⟨before, e, List.prefix_rfl, hnew⟩

/-- **Every record in a table or message was the own record** of an agent at
some time of the run. -/
theorem holds_run {events : List (Event ι)} {r : MemberRecord}
    (h : ((start hosts).run events).Holds r) :
    ∃ i p, p <+: events ∧ r = (((start hosts).run p).agents i).own := by
  obtain ⟨p, e, hp, hgive⟩ := givesAway_of_holds h
  obtain ⟨i, rfl⟩ := hgive.own
  exact ⟨i, p ++ [e], hp, by rw [run_append]; rfl⟩

/-- Of two times of a run the own record at the later succeeds the earlier. -/
theorem succeeds_along {p q : List (Event ι)} (h : p <+: q) (n : Network ι) (i : ι) :
    Succeeds ((n.run p).agents i).own ((n.run q).agents i).own := by
  obtain ⟨more, rfl⟩ := h
  rw [run_append]
  exact own_run (n.run p) more i

/-- At all times of a run at which a node has one heartbeat it has one set of
tags. -/
theorem tags_eq_of_heartbeat_eq {events p q : List (Event ι)} (hp : p <+: events)
    (hq : q <+: events) (n : Network ι) (i : ι)
    (h : ((n.run p).agents i).own.heartbeat = ((n.run q).agents i).own.heartbeat) :
    ((n.run p).agents i).own.tags = ((n.run q).agents i).own.tags := by
  rcases List.prefix_or_prefix_of_prefix hp hq with hpq | hqp
  · exact ((succeeds_along hpq n i).tags h.symm).symm
  · exact (succeeds_along hqp n i).tags h

/-- No node has had more beats than there were events.  In a run of fewer than
2^64 events a counter of 64 bits, as on the wire, is therefore enough. -/
theorem heartbeat_le_length (events : List (Event ι)) (i : ι) :
    (((start hosts).run events).agents i).own.heartbeat ≤ events.length := by
  induction events using List.reverseRecOn with
  | nil => exact Nat.le_refl _
  | append_singleton before e ih =>
    rw [run_append, List.length_append]
    exact Nat.le_trans (turn_step _ e i).heartbeat_le (Nat.succ_le_succ ih)

/-- A run is faithful to what its nodes have advertised. -/
structure Faithful (hosts : ι → Host) (events : List (Event ι)) : Prop where
  /-- Every record in a table or message is of a node of the network. -/
  known : ∀ r, ((start hosts).run events).Holds r → ∃ i, r.name = (hosts i).name
  /-- Its heartbeat is not above that of the node's own record. -/
  bounded : ∀ r i, ((start hosts).run events).Holds r → r.name = (hosts i).name →
    r.heartbeat ≤ (((start hosts).run events).agents i).own.heartbeat
  /-- The own record once had that heartbeat. -/
  reached : ∀ r i, ((start hosts).run events).Holds r → r.name = (hosts i).name →
    ∃ p, p <+: events ∧ (((start hosts).run p).agents i).own.heartbeat = r.heartbeat
  /-- Whenever it had, it had those tags and those addresses. -/
  genuine : ∀ r i p, ((start hosts).run events).Holds r → r.name = (hosts i).name →
    p <+: events → (((start hosts).run p).agents i).own.heartbeat = r.heartbeat →
    (((start hosts).run p).agents i).own.tags = r.tags
      ∧ (((start hosts).run p).agents i).own.addr = r.addr
      ∧ (((start hosts).run p).agents i).own.agentAddr = r.agentAddr
  /-- Records of one node with one heartbeat, at whatever times of the run,
  have the same tags. -/
  agreed : ∀ p q r r', p <+: events → q <+: events →
    ((start hosts).run p).Holds r → ((start hosts).run q).Holds r' →
    r.name = r'.name → r.heartbeat = r'.heartbeat → r.tags = r'.tags
  /-- In a table each record stands under the name of its node. -/
  keyed : ∀ i, (((start hosts).run events).agents i).Keyed
  /-- No agent goes back to an older record of another node. -/
  monotone : ∀ p i, p <+: events →
    Agent.Older (((start hosts).run p).agents i) (((start hosts).run events).agents i)
  /-- No node goes back to an older record of its own. -/
  ownMonotone : ∀ p i, p <+: events → (((start hosts).run p).agents i).own.heartbeat
    ≤ (((start hosts).run events).agents i).own.heartbeat

/-- The node of an own record is told by its name. -/
theorem eq_of_own_name (hnames : Function.Injective fun i => (hosts i).name) {i j : ι}
    {p : List (Event ι)} (h : (((start hosts).run p).agents j).own.name = (hosts i).name) :
    j = i := by
  apply hnames
  -- a node keeps its name
  exact (own_run (start hosts) p j).name.symm.trans h

/-- **Gossip neither invents nor rolls back a configuration.**  Whatever the
agents do and however their messages are delivered, the run is faithful. -/
theorem run_faithful (hnames : Function.Injective fun i => (hosts i).name)
    (events : List (Event ι)) : Faithful hosts events where
  known := by
    intro r hr
    obtain ⟨i, p, -, rfl⟩ := holds_run hr
    exact ⟨i, (own_run (start hosts) p i).name⟩
  bounded := by
    intro r i hr hname
    obtain ⟨j, p, hp, rfl⟩ := holds_run hr
    obtain rfl := eq_of_own_name hnames hname
    exact (succeeds_along hp (start hosts) j).heartbeat
  reached := by
    intro r i hr hname
    obtain ⟨j, p, hp, rfl⟩ := holds_run hr
    obtain rfl := eq_of_own_name hnames hname
    exact ⟨p, hp, rfl⟩
  genuine := by
    intro r i q hr hname hq hbeat
    obtain ⟨j, p, hp, rfl⟩ := holds_run hr
    obtain rfl := eq_of_own_name hnames hname
    have hatp := own_run (start hosts) p j
    have hatq := own_run (start hosts) q j
    -- the addresses are those of the start, the tags those of the heartbeat
    refine ⟨tags_eq_of_heartbeat_eq hq hp (start hosts) j hbeat, ?_, ?_⟩
    · exact hatq.addr.trans hatp.addr.symm
    · exact hatq.agentAddr.trans hatp.agentAddr.symm
  agreed := by
    intro p q r r' hp hq hr hr' hname hbeat
    obtain ⟨i, p₀, hp₀, rfl⟩ := holds_run hr
    obtain ⟨j, q₀, hq₀, rfl⟩ := holds_run hr'
    -- both are own records, and of one agent
    have hj : (((start hosts).run p₀).agents i).own.name = (hosts j).name :=
      hname.trans (own_run (start hosts) q₀ j).name
    obtain rfl := eq_of_own_name hnames hj
    exact tags_eq_of_heartbeat_eq (hp₀.trans hp) (hq₀.trans hq) (start hosts) i hbeat
  keyed := by
    intro i
    exact keyed_run (start hosts) events i nofun
  monotone := by
    rintro p i ⟨more, rfl⟩
    rw [run_append]
    exact older_run ((start hosts).run p) more i
  ownMonotone := by
    intro p i hp
    exact (succeeds_along hp (start hosts) i).heartbeat

/-- Two nodes, the second of which has the first as its seed. -/
def couple (first : Bool) : Host :=
  let seed : SocketAddr := { (default : SocketAddr) with port := 7001 }
  if first then ⟨"a", seed, [], ⟨10000000000⟩⟩
  else ⟨"b", { seed with port := 7002 }, [seed], ⟨10000000000⟩⟩

/-- The first publishes while the second is about to answer it, and gets the
answer twice. -/
theorem run_faithful_couple : Faithful couple
    [.send true, .serve false 0 5, .gather 0, .publish true "a" (Table.empty.insert "x" "1"),
      .answer 0, .collect 0 7, .collect 0 9] := by
  refine run_faithful ?_ _
  intro i j h
  cases i with
  | true =>
    cases j with
    | true => rfl
    | false => exact absurd h (by decide)
  | false =>
    cases j with
    | true => exact absurd h (by decide)
    | false => rfl

end Rendezvous.Gossip.Network
