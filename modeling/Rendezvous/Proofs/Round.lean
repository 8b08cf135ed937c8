/-
Rendezvous/Proofs/Round.lean

A round joins tables in both directions.

An agent sends all its records to its targets, each target takes them in and then sends
back all of its own, and the agent takes in what has come back.  Targets may be out of
reach, and answers may be lost or spoilt on their way (`Fate`).

Of the records under one name only the largest heartbeat counts, and merging keeps it:

    (merge a l).heartbeat? k = highest? k (a.others ++ l)      for k other than a's own name.

A target answers after it has taken the records in, so its answer may bring some of them
back.  They do no harm: whatever an answer brings was sent or was the target's before, and
nothing of the target is missing in it, or only for something newer (`mem_records_merge`,
`covered_records_merge`).  So the answers are worth what the targets had before, in
whatever order they are merged (`round_joins`).
-/
import Mathlib.Logic.Function.Basic
import Rendezvous.Proofs.Detection
import Rendezvous.Proofs.Listing
import Rendezvous.Proofs.Wire

namespace Rendezvous.Agent

open Http

variable {a b : Agent} {k : String} {l l' : List MemberRecord} {time : Nat} {n : Nat}

/-! ### Largest heartbeats -/

/-- The largest heartbeat among records of a name. -/
def highest? (k : String) (l : List MemberRecord) : Option Nat :=
  ((l.filter fun r => r.name = k).map MemberRecord.heartbeat).max?

theorem highest?_eq_some_iff : highest? k l = some n
    ↔ (∃ r ∈ l, r.name = k ∧ r.heartbeat = n) ∧ ∀ r ∈ l, r.name = k → r.heartbeat ≤ n := by
  rw [highest?, List.max?_eq_some_iff]
  simp only [List.mem_map, List.mem_filter, decide_eq_true_eq, and_assoc, forall_exists_index,
    and_imp, forall_comm (α := Nat), forall_eq']

theorem highest?_eq_none_iff : highest? k l = none ↔ ∀ r ∈ l, r.name ≠ k := by
  simp [highest?]

/-- Each record of a name is no newer than one of the same name in another list. -/
def Covered (k : String) (l l' : List MemberRecord) : Prop :=
  ∀ r ∈ l, r.name = k → ∃ r' ∈ l', r'.name = k ∧ r.heartbeat ≤ r'.heartbeat

/-- Lists that cover each other have the same largest heartbeat. -/
theorem highest?_congr (h : Covered k l l') (h' : Covered k l' l) :
    highest? k l = highest? k l' := by
  rcases hl : highest? k l with _ | n
  · symm
    rw [highest?_eq_none_iff] at hl ⊢
    intro r hr hname
    obtain ⟨q, hq, hqname, -⟩ := h' r hr hname
    exact hl q hq hqname
  · symm
    rw [highest?_eq_some_iff] at hl ⊢
    obtain ⟨⟨r, hr, hname, rfl⟩, hmax⟩ := hl
    have hbound : ∀ q ∈ l', q.name = k → q.heartbeat ≤ r.heartbeat := by
      intro q hq hqname
      obtain ⟨r', hr', hname', hle⟩ := h' q hq hqname
      exact Nat.le_trans hle (hmax r' hr' hname')
    obtain ⟨q, hq, hqname, hle⟩ := h r hr hname
    exact ⟨⟨q, hq, hqname, Nat.le_antisymm (hbound q hq hqname) hle⟩, hbound⟩

/-- The heartbeat of a newest record is the largest. -/
theorem Newest.map_heartbeat {o : Option MemberRecord}
    (h : Newest (fun q => q ∈ l ∧ q.name = k) o) :
    o.map MemberRecord.heartbeat = highest? k l := by
  symm
  cases o with
  | none => exact highest?_eq_none_iff.mpr fun r hr hname => h r ⟨hr, hname⟩
  | some r =>
    exact highest?_eq_some_iff.mpr
      ⟨⟨r, h.1.1, h.1.2, rfl⟩, fun q hq hname => h.2 q ⟨hq, hname⟩⟩

/-! ### What merging keeps -/

/-- The heartbeat that an agent holds for a name. -/
def heartbeat? (a : Agent) (k : String) : Option Nat := (a.record? k).map MemberRecord.heartbeat

theorem Keyed.record?_eq_some_iff (h : a.Keyed) {r : MemberRecord} :
    a.record? k = some r ↔ r ∈ a.others ∧ r.name = k := by
  rw [record?, Option.map_eq_some_iff, mem_others_iff]
  constructor
  · rintro ⟨s, hs, rfl⟩
    exact ⟨⟨k, s, hs, rfl⟩, h k s hs⟩
  · rintro ⟨⟨k', s, hs, rfl⟩, hname⟩
    obtain rfl : k' = k := (h k' s hs).symm.trans hname
    exact ⟨s, hs, rfl⟩

/-- **Merging leaves the largest heartbeat** of those held and those merged, in whatever
batches they come. -/
theorem heartbeat?_merges (h : a.Keyed) (hk : k ≠ a.name) (time : Nat)
    (answers : List (List MemberRecord)) :
    (answers.foldl (merge time) a).heartbeat? k = highest? k (a.others ++ answers.flatten) := by
  have hbatches : answers.foldl (merge time) a = a.mergeAll (answers.map (time, ·)) := by
    rw [mergeAll, List.foldl_map]
  have hrecords : recordsOf (answers.map (time, ·)) = answers.flatten := by
    rw [recordsOf, List.flatMap_map, List.flatMap_id']
  have hnewest := newest_mergeAll hk (answers.map (time, ·))
  rw [hrecords, ← hbatches] at hnewest
  refine (hnewest.congr fun q => ?_).map_heartbeat
  rw [Offered, h.record?_eq_some_iff, List.mem_append, or_and_right]

theorem heartbeat?_merge (h : a.Keyed) (hk : k ≠ a.name) (l : List MemberRecord) :
    (a.merge time l).heartbeat? k = highest? k (a.others ++ l) := by
  have hone := heartbeat?_merges h hk time [l]
  rwa [List.flatten_singleton] at hone

/-- What an agent has after merging it had before, or it was merged. -/
theorem mem_records_merge {r : MemberRecord} (h : r ∈ (b.merge time l).records) :
    r ∈ b.records ∨ r ∈ l := by
  rcases List.mem_append.mp h with hothers | hown
  · exact (mem_others_merge hothers).imp_left (List.mem_append_left _)
  · rw [own_merge] at hown
    exact Or.inl (List.mem_append_right _ hown)

/-- What an agent had it still has after merging, or something newer. -/
theorem covered_records_merge (h : b.Keyed) (l : List MemberRecord) (time : Nat)
    (k : String) : Covered k b.records (b.merge time l).records := by
  rintro r hr rfl
  rcases List.mem_append.mp hr with hothers | hown
  · obtain ⟨k, s, hs, rfl⟩ := mem_others_iff.mp hothers
    obtain ⟨s', hs', hle⟩ := older_merge time b l k s hs
    have hname : s'.record.name = s.record.name :=
      (keyed_merge time h l k s' hs').trans (h k s hs).symm
    exact ⟨s'.record, List.mem_append_left _ (mem_others_iff.mpr ⟨k, s', hs', rfl⟩), hname, hle⟩
  · refine ⟨r, List.mem_append_right _ ?_, rfl, Nat.le_refl _⟩
    rwa [own_merge]

theorem WellNamed.merge (h : a.WellNamed) (time : Nat) (l : List MemberRecord) :
    (a.merge time l).WellNamed := h.act (.merge time l)

theorem WellNamed.merges (h : a.WellNamed) (time : Nat) (answers : List (List MemberRecord)) :
    (answers.foldl (Agent.merge time) a).WellNamed := by
  rw [← live_merges]
  exact h.live _

theorem own_merges (time : Nat) (a : Agent) (answers : List (List MemberRecord)) :
    (answers.foldl (Agent.merge time) a).own = a.own := by
  induction answers generalizing a with
  | nil => rfl
  | cons l rest ih =>
    rw [List.foldl_cons, ih]
    exact own_merge time a l

/-! ### Agents at addresses -/

/-- What becomes of a request to an address. -/
inductive Fate where
  /-- The agent there takes it in and answers. -/
  | answered
  /-- Nothing comes back, or nothing that brings records.  The agent there has taken the
  request in, or it has not. -/
  | missed (taken : Bool) (reply : { r : Option Reply // received r = [] })

namespace Fate

def isAnswered : Fate → Bool
  | answered => true
  | missed _ _ => false

/-- Whether the request is taken in. -/
def isTaken : Fate → Bool
  | answered => true
  | missed taken _ => taken

/-- What comes back of an answer. -/
def returned : Fate → List MemberRecord → List MemberRecord
  | answered, l => l
  | missed _ _, _ => []

theorem isTaken_of_isAnswered {f : Fate} (h : f.isAnswered) : f.isTaken := by
  cases f with
  | answered => rfl
  | missed taken reply => cases h

end Fate

/-- Requests to agents at addresses, each of which has its own clock. -/
def reach (fate : SocketAddr → Fate) (clock : SocketAddr → Nat) :
    Exchange (SocketAddr → Agent) := fun addr r w =>
  let (reply, b) := (w addr).serve (clock addr) r
  match fate addr with
  | .answered => (some reply, Function.update w addr b)
  | .missed taken reply => (reply.1, if taken then Function.update w addr b else w)

/-- A round that lists its records and visits its targets in some order. -/
def roundIn {σ : Type} (net : Exchange σ) (time : Nat) (a : Agent) (sent : List MemberRecord)
    (order : List SocketAddr) (s : σ) : Agent × σ :=
  let (answers, s) := exchangeAll net sent order s
  (answers.foldl (merge time) a.beat, s)

variable {fate : SocketAddr → Fate} {clock : SocketAddr → Nat} {w w' : SocketAddr → Agent}
  {sent : List MemberRecord} {order : List SocketAddr} {addr : SocketAddr}

/-- The agents after a request has been sent to some of them. -/
def spread (fate : SocketAddr → Fate) (clock : SocketAddr → Nat) (sent : List MemberRecord)
    (order : List SocketAddr) (w : SocketAddr → Agent) : SocketAddr → Agent := fun addr =>
  if addr ∈ order ∧ (fate addr).isTaken then (w addr).merge (clock addr) sent else w addr

/-- One request: who takes it in merges what was sent, and an answer brings all that there
is then. -/
theorem reach_sync (clock : SocketAddr → Nat) (hsent : ∀ r ∈ sent, r.Proper)
    (hproper : (fate addr).isAnswered → ∀ r ∈ (w addr).records, r.Proper) :
    let o := reach fate clock addr (.withJson Request.post Path.sync (recordsTree sent)) w
    received o.1 = (fate addr).returned ((w addr).merge (clock addr) sent).records
    ∧ o.2 = spread fate clock sent [addr] w := by
  have hserve := serve_sync (w addr) (clock addr) hsent (recordsTree_written sent)
  have hupdate : spread fate clock sent [addr] w
      = if (fate addr).isTaken then Function.update w addr ((w addr).merge (clock addr) sent)
        else w := by
    funext addr'
    by_cases haddr : addr' = addr
    · subst haddr
      by_cases htaken : (fate addr').isTaken <;> simp [spread, htaken]
    · by_cases htaken : (fate addr).isTaken <;> simp [spread, haddr, htaken]
  intro o
  rw [hupdate]
  rcases hfate : fate addr with _ | ⟨taken, reply⟩
  · have ho : o = (some (.json 200 (recordsTree ((w addr).merge (clock addr) sent).records)),
        Function.update w addr ((w addr).merge (clock addr) sent)) := by
      simp only [o, reach, hserve, hfate]
    rw [hfate] at hproper
    rw [ho]
    exact ⟨received_json (proper_records_merge (hproper rfl) hsent _) (recordsTree_written _), rfl⟩
  · have ho : o = (reply.1,
        if taken then Function.update w addr ((w addr).merge (clock addr) sent) else w) := by
      simp only [o, reach, hserve, hfate]
    rw [ho]
    exact ⟨reply.2, rfl⟩

theorem spread_cons (h : addr ∉ order) :
    spread fate clock sent order (spread fate clock sent [addr] w)
      = spread fate clock sent (addr :: order) w := by
  funext addr'
  by_cases haddr : addr' = addr
  · subst haddr
    simp [spread, h]
  · simp [spread, haddr]

theorem spread_of_taken (h : addr ∈ order) (htaken : (fate addr).isTaken) :
    spread fate clock sent order w addr = (w addr).merge (clock addr) sent := if_pos ⟨h, htaken⟩

theorem spread_of_not_mem (h : addr ∉ order) : spread fate clock sent order w addr = w addr :=
  if_neg fun hboth => h hboth.1

theorem WellNamed.spread (h : (w addr).WellNamed) :
    (spread fate clock sent order w addr).WellNamed := by
  rw [Agent.spread]
  split
  · exact h.merge _ _
  · exact h

/-- The answers of a round. -/
def answers (fate : SocketAddr → Fate) (clock : SocketAddr → Nat) (sent : List MemberRecord)
    (order : List SocketAddr) (w : SocketAddr → Agent) : List (List MemberRecord) :=
  order.map fun addr => (fate addr).returned ((w addr).merge (clock addr) sent).records

/-- The answers depend on the targets that answer only. -/
theorem answers_congr (h : ∀ addr ∈ order, (fate addr).isAnswered → w' addr = w addr) :
    answers fate clock sent order w' = answers fate clock sent order w := by
  refine List.map_congr_left fun addr haddr => ?_
  have hsame := h addr haddr
  rcases hfate : fate addr with _ | ⟨taken, reply⟩
  · rw [hfate] at hsame
    rw [hsame rfl]
  · rfl

/-- **All requests of a round.**  As no target is visited twice, each is as it was before
when it is. -/
theorem exchangeAll_reach (clock : SocketAddr → Nat) (horder : order.Nodup)
    (hsent : ∀ r ∈ sent, r.Proper)
    (hproper : ∀ addr ∈ order, (fate addr).isAnswered → ∀ r ∈ (w addr).records, r.Proper) :
    exchangeAll (reach fate clock) sent order w
      = (answers fate clock sent order w, spread fate clock sent order w) := by
  induction order generalizing w with
  | nil =>
    have hsame : spread fate clock sent [] w = w := funext fun _ => spread_of_not_mem nofun
    rw [hsame]
    rfl
  | cons addr order ih =>
    obtain ⟨hfresh, hrest⟩ := List.nodup_cons.mp horder
    obtain ⟨hreceived, hworld⟩ := reach_sync clock hsent
      (hproper addr List.mem_cons_self)
    have hothers : ∀ addr' ∈ order, spread fate clock sent [addr] w addr' = w addr' := by
      intro addr' haddr'
      refine spread_of_not_mem fun hmem => hfresh ?_
      rwa [← List.mem_singleton.mp hmem]
    have hlater := ih (w := spread fate clock sent [addr] w) hrest fun addr' haddr' hanswered => by
      rw [hothers addr' haddr']
      exact hproper addr' (List.mem_cons_of_mem _ haddr') hanswered
    rw [spread_cons hfresh, answers_congr fun addr' haddr' _ => hothers addr' haddr'] at hlater
    rw [exchangeAll]
    dsimp only
    rw [hworld, hlater, hreceived]
    rfl

/-! ### A round -/

/-- What the targets that answer had before the round. -/
def heard (fate : SocketAddr → Fate) (order : List SocketAddr) (w : SocketAddr → Agent) :
    List MemberRecord :=
  (order.filter fun addr => (fate addr).isAnswered).flatMap fun addr => (w addr).records

theorem mem_heard {r : MemberRecord} : r ∈ heard fate order w
    ↔ ∃ addr ∈ order, (fate addr).isAnswered ∧ r ∈ (w addr).records := by
  simp [heard, and_assoc]

theorem mem_answers {r : MemberRecord} : r ∈ (answers fate clock sent order w).flatten
    ↔ ∃ addr ∈ order, (fate addr).isAnswered
      ∧ r ∈ ((w addr).merge (clock addr) sent).records := by
  simp only [answers, List.mem_flatten, List.mem_map, exists_exists_and_eq_and]
  refine exists_congr fun addr => and_congr_right fun _ => ?_
  rcases fate addr with _ | ⟨taken, reply⟩ <;> simp [Fate.returned, Fate.isAnswered]

/-- **Answers are worth what the targets had before.** -/
theorem highest?_answers (hk : k ≠ a.name) (hsent : ∀ r ∈ sent, r ∈ a.others ∨ r = a.beat.own)
    (hkeyed : ∀ addr ∈ order, (fate addr).isAnswered → (w addr).Keyed) :
    highest? k (a.others ++ (answers fate clock sent order w).flatten)
      = highest? k (a.others ++ heard fate order w) := by
  apply highest?_congr
  · rintro r hr hname
    refine ⟨r, List.mem_append.mpr ?_, hname, Nat.le_refl _⟩
    rcases List.mem_append.mp hr with hold | hnew
    · exact Or.inl hold
    · obtain ⟨addr, haddr, hanswered, hmem⟩ := mem_answers.mp hnew
      rcases mem_records_merge hmem with htarget | hback
      · exact Or.inr (mem_heard.mpr ⟨addr, haddr, hanswered, htarget⟩)
      · -- what was sent comes back: it is nothing new, for the own record has another name
        refine Or.inl ((hsent r hback).resolve_right ?_)
        rintro rfl
        exact hk hname.symm
  · rintro r hr hname
    rcases List.mem_append.mp hr with hold | hnew
    · exact ⟨r, List.mem_append_left _ hold, hname, Nat.le_refl _⟩
    · obtain ⟨addr, haddr, hanswered, hmem⟩ := mem_heard.mp hnew
      obtain ⟨q, hq, hqname, hle⟩ :=
        covered_records_merge (hkeyed addr haddr hanswered) sent (clock addr) k r hmem hname
      exact ⟨q, List.mem_append_right _ (mem_answers.mpr ⟨addr, haddr, hanswered, hq⟩), hqname,
        hle⟩

theorem highest?_congr_mem (h : ∀ r, r ∈ l ↔ r ∈ l') : highest? k l = highest? k l' :=
  highest?_congr (fun r hr hname => ⟨r, (h r).mp hr, hname, Nat.le_refl _⟩)
    fun r hr hname => ⟨r, (h r).mpr hr, hname, Nat.le_refl _⟩

/-- What a round of an agent comes to. -/
structure Joined (a : Agent) (fate : SocketAddr → Fate) (w : SocketAddr → Agent)
    (o : Agent × (SocketAddr → Agent)) : Prop where
  /-- The own record has one more beat. -/
  own : o.1.own = { a.own with heartbeat := a.own.heartbeat + 1 }
  /-- The agent holds the largest heartbeat of its own table and of all that the targets
  that answered had. -/
  took : ∀ k ≠ a.name, o.1.heartbeat? k = highest? k (a.others ++ heard fate a.targets w)
  /-- A target that answered holds the largest heartbeat of its own table and of all that
  the agent has sent, its own record among them. -/
  gave : ∀ addr ∈ a.targets, (fate addr).isAnswered → ∀ k ≠ (w addr).name,
    (o.2 addr).heartbeat? k = highest? k ((w addr).others ++ (a.others ++ [o.1.own]))
  /-- Nobody holds a record under its own name. -/
  wellNamed : o.1.WellNamed ∧ ∀ addr ∈ a.targets, (o.2 addr).WellNamed
  /-- Nobody else is changed. -/
  others : ∀ addr, addr ∉ a.targets ∨ ¬ (fate addr).isTaken → o.2 addr = w addr

theorem joined (ha : a.WellNamed) (hw : ∀ addr ∈ a.targets, (w addr).WellNamed)
    (hsent : sent.Perm a.beat.records) (horder : order.Perm a.targets) :
    Joined a fate w ((answers fate clock sent order w).foldl (merge time) a.beat,
      spread fate clock sent order w) where
  own := own_merges time a.beat _
  took := by
    intro k hk
    have hbeat : a.beat.WellNamed := ha.act .beat
    have hlisted : ∀ r ∈ sent, r ∈ a.others ∨ r = a.beat.own := fun r hr =>
      (List.mem_append.mp (hsent.mem_iff.mp hr)).imp_right List.mem_singleton.mp
    have hkeyed : ∀ addr ∈ order, (fate addr).isAnswered → (w addr).Keyed := fun addr haddr _ =>
      (hw addr (horder.mem_iff.mp haddr)).keyed
    refine (heartbeat?_merges hbeat.keyed hk time _).trans ?_
    refine (highest?_answers hk hlisted hkeyed).trans (highest?_congr_mem fun r => ?_)
    simp only [List.mem_append, mem_heard, horder.mem_iff]
  gave := by
    intro addr haddr hanswered k hk
    have htaken : (fate addr).isTaken := Fate.isTaken_of_isAnswered hanswered
    show (spread fate clock sent order w addr).heartbeat? k = _
    rw [spread_of_taken (horder.mem_iff.mpr haddr) htaken,
      heartbeat?_merge (hw addr haddr).keyed hk, own_merges]
    refine highest?_congr_mem fun r => ?_
    rw [List.mem_append, hsent.mem_iff, List.mem_append]
    rfl
  wellNamed := ⟨(ha.act .beat).merges time _, fun addr haddr => (hw addr haddr).spread⟩
  others := by
    rintro addr (hnot | hnot)
    · exact spread_of_not_mem fun hmem => hnot (horder.mem_iff.mp hmem)
    · exact if_neg fun hboth => hnot hboth.2

/-- **A round joins tables in both directions.**  Whichever targets answer, the agent ends
with the largest heartbeats of its own table and of theirs, and they with the largest of
theirs and of what was sent.  A target that did not answer makes no difference to the
agent.  It does not matter in which order records are listed and targets are visited, nor
what names the targets have.  Agents are well named from their start (`wellNamed_create`,
`WellNamed.live`), and their records are proper as long as heartbeats have 64 bits. -/
theorem round_joins (ha : a.WellNamed) (hw : ∀ addr ∈ a.targets, (w addr).WellNamed)
    (hbeat : ∀ r ∈ a.beat.records, r.Proper)
    (hproper : ∀ addr ∈ a.targets, (fate addr).isAnswered → ∀ r ∈ (w addr).records, r.Proper)
    (clock : SocketAddr → Nat) (time : Nat) :
    a.round (reach fate clock) time w
      = a.roundIn (reach fate clock) time a.beat.records a.targets w
    ∧ ∀ sent order, sent.Perm a.beat.records → order.Perm a.targets →
      Joined a fate w (a.roundIn (reach fate clock) time sent order w)
      ∧ ∀ w', (∀ addr, (fate addr).isAnswered → w' addr = w addr) →
        (a.roundIn (reach fate clock) time sent order w').1
          = (a.roundIn (reach fate clock) time sent order w).1 := by
  refine ⟨rfl, fun sent order hsent horder => ?_⟩
  have hproperSent : ∀ r ∈ sent, r.Proper := fun r hr => hbeat r (hsent.mem_iff.mp hr)
  have hnodup : order.Nodup := by
    refine horder.nodup_iff.mpr (List.Nodup.filter _ ?_)
    exact SocketAddr.nodup_listing _
  have hrun : ∀ w', (∀ addr, (fate addr).isAnswered → w' addr = w addr) →
      a.roundIn (reach fate clock) time sent order w'
        = ((answers fate clock sent order w).foldl (merge time) a.beat,
          spread fate clock sent order w') := by
    intro w' hsame
    have hall := exchangeAll_reach (w := w') clock hnodup hproperSent
      fun addr haddr hanswered => by
        rw [hsame addr hanswered]
        exact hproper addr (horder.mem_iff.mp haddr) hanswered
    rw [answers_congr fun addr _ => hsame addr] at hall
    rw [roundIn, hall]
  refine ⟨?_, fun w' hsame => ?_⟩
  · rw [hrun w fun _ _ => rfl]
    exact joined ha hw hsent horder
  · rw [hrun w' hsame, hrun w fun _ _ => rfl]

/-- An agent that knows one other and is to visit three. -/
def visitor : Agent :=
  (create "a" (.atPort 1) [.atPort 4, .atPort 2, .atPort 3] ⟨10⟩).merge 3 [beatOf "b" 5]

/-- The first of the three has heard of the visitor, the second is out of reach for its answer,
and the third for all. -/
def hosts (addr : SocketAddr) : Agent :=
  if addr = .atPort 2 then (create "b" addr [] ⟨10⟩).merge 4 [beatOf "a" 3, beatOf "c" 7]
  else if addr = .atPort 3 then create "c" addr [] ⟨10⟩
  else create "d" addr [] ⟨10⟩

def crossing (addr : SocketAddr) : Fate :=
  if addr = .atPort 2 then .answered else .missed (addr = .atPort 3) ⟨none, rfl⟩

theorem visitor_proper : ∀ r ∈ visitor.beat.records, r.Proper := by
  intro r hr
  rcases List.mem_append.mp hr with hothers | hown
  · rcases mem_others_merge hothers with hold | hnew
    · cases hold
    · rw [List.mem_singleton.mp hnew]
      exact ⟨by decide, Or.inl rfl⟩
  · rw [List.mem_singleton.mp hown, beat, visitor, own_merge]
    exact ⟨by decide, Or.inl rfl⟩

theorem hosts_wellNamed (addr : SocketAddr) : (hosts addr).WellNamed := by
  rw [hosts]
  split
  · exact (wellNamed_create ..).merge 4 _
  · split <;> exact wellNamed_create ..

theorem hosts_proper (addr : SocketAddr) (h : (crossing addr).isAnswered) :
    ∀ r ∈ (hosts addr).records, r.Proper := by
  have haddr : addr = .atPort 2 := by
    by_contra hne
    simp [crossing, hne, Fate.isAnswered] at h
  subst haddr
  intro r hr
  rw [hosts, if_pos rfl] at hr
  rcases mem_records_merge hr with hown | hnew
  · rw [List.mem_singleton.mp hown]
    exact ⟨by decide, Or.inl rfl⟩
  · simp only [List.mem_cons, List.not_mem_nil, or_false] at hnew
    rcases hnew with rfl | rfl <;> exact ⟨by decide, Or.inl rfl⟩

/-- One target answers, one takes the records in without being heard, one hears nothing. -/
theorem round_joins_visitor :
    SocketAddr.atPort 2 ∈ visitor.targets ∧ (crossing (.atPort 2)).isAnswered
    ∧ Joined visitor crossing hosts (visitor.round (reach crossing fun _ => 6) 9 hosts) := by
  refine ⟨?_, rfl, ?_⟩
  · rw [targets, List.mem_filter, SocketAddr.mem_listing]
    exact ⟨by decide, by decide⟩
  · have hnamed : visitor.WellNamed := (wellNamed_create ..).merge 3 _
    obtain ⟨heq, hjoined⟩ := round_joins hnamed (fun addr _ => hosts_wellNamed addr)
      visitor_proper (fun addr _ => hosts_proper addr) (fun _ => 6) 9
    rw [heq]
    exact (hjoined _ _ (List.Perm.refl _) (List.Perm.refl _)).1

end Rendezvous.Agent
