/-
Rendezvous/Proofs/Detection.lean

Which members an agent takes for alive.

An agent notes the time of a merge with a record only where the merge stores a
name for the first time or raises its heartbeat (`get?_merge_or`).  So in every run
the time that stands with a record is that of the last such merge
(`map_time_live`), and the view at a later time tells the other members alive from
failed by it and nothing else (`view_live`).  Records that are not newer than those
known are not even noticed, however often and by whomever they are sent.

What the own node does, its rounds and its leaving included, only changes the own
record beside the merging (`round_eq_live`, `leave_eq_live`).
-/
import Rendezvous.Proofs.Convergence

namespace Rendezvous.Agent

variable {a : Agent} {k : String} {time t : Nat} {l : List MemberRecord}

/-! ### What an agent does -/

/-- What an agent does: it merges records that came in a request or a reply, or it
does something with its own record. -/
inductive Act where
  | merge (time : Nat) (l : List MemberRecord)
  | publish (node : String) (tags : TagSet)
  | beat
  | markLeft
  | stop
  deriving DecidableEq

/-- The records that are merged. -/
def Act.records : Act → List MemberRecord
  | .merge _ l => l
  | _ => []

/-- Do one thing. -/
def act (a : Agent) : Act → Agent
  | .merge time l => a.merge time l
  | .publish node tags => (a.publishTags node tags).2
  | .beat => a.beat
  | .markLeft => a.markLeft
  | .stop => { a with running := false }

/-- Do one thing after the other. -/
def live (a : Agent) (acts : List Act) : Agent := acts.foldl act a

theorem live_append (a : Agent) (acts later : List Act) :
    a.live (acts ++ later) = (a.live acts).live later := List.foldl_append

theorem live_merges (a : Agent) (time : Nat) (answers : List (List MemberRecord)) :
    a.live (answers.map (.merge time)) = answers.foldl (merge time) a := List.foldl_map

/-- A round is a beat and some merges. -/
theorem round_eq_live {σ : Type} (net : Http.Exchange σ) (time : Nat) (a : Agent) (s : σ) :
    ∃ answers : List (List MemberRecord),
      (a.round net time s).1 = a.live (.beat :: answers.map (.merge time)) :=
  ⟨_, (live_merges a.beat time _).symm⟩

/-- To leave is to mark the own record, to have a last round and to stop. -/
theorem leave_eq_live {σ : Type} (net : Http.Exchange σ) (time : Nat) (a : Agent) (s : σ) :
    ∃ answers : List (List MemberRecord),
      (a.leave net time s).1
        = a.live (.markLeft :: .beat :: answers.map (.merge time) ++ [.stop]) := by
  obtain ⟨answers, hround⟩ := a.markLeft.round_eq_live net time s
  refine ⟨answers, ?_⟩
  rw [live_append]
  show { (a.markLeft.round net time s).1 with running := false } = _
  rw [hround]
  rfl

/-! #### What stays as it is -/

/-- Publishing changes the own record, but neither its name nor whether it has
left. -/
theorem act_publish (a : Agent) (node : String) (tags : TagSet) :
    ∃ own : MemberRecord, a.act (.publish node tags) = { a with own }
      ∧ own.name = a.own.name ∧ own.left = a.own.left := by
  rw [act]
  by_cases hname : node = a.name
  · rw [publishTags_own hname]
    exact ⟨_, rfl, rfl, rfl⟩
  · rw [publishTags_other hname]
    exact ⟨a.own, rfl, rfl, rfl⟩

@[simp] theorem failureTimeout_merge (time : Nat) (a : Agent) (l : List MemberRecord) :
    (a.merge time l).failureTimeout = a.failureTimeout := by
  induction l generalizing a with
  | nil => rfl
  | cons r rest ih =>
    show ((a.mergeRecord time r).merge time rest).failureTimeout = _
    rw [ih, mergeRecord]
    split <;> rfl

theorem name_act (a : Agent) (x : Act) : (a.act x).name = a.name := by
  cases x with
  | merge time l => exact name_merge time a l
  | publish node tags =>
    obtain ⟨own, h, hname, -⟩ := act_publish a node tags
    rw [h]
    exact hname
  | beat | markLeft | stop => rfl

theorem failureTimeout_act (a : Agent) (x : Act) :
    (a.act x).failureTimeout = a.failureTimeout := by
  cases x with
  | merge time l => exact failureTimeout_merge time a l
  | publish node tags =>
    obtain ⟨own, h, -⟩ := act_publish a node tags
    rw [h]
  | beat | markLeft | stop => rfl

/-- For the table all that is done is merging. -/
theorem members_act (a : Agent) (x : Act) :
    (∃ time l, x = .merge time l) ∨ x.records = [] ∧ (a.act x).members = a.members := by
  cases x with
  | merge time l => exact Or.inl ⟨time, l, rfl⟩
  | publish node tags =>
    obtain ⟨own, h, -⟩ := act_publish a node tags
    refine Or.inr ⟨rfl, ?_⟩
    rw [h]
  | beat | markLeft | stop => exact Or.inr ⟨rfl, rfl⟩

theorem left_act (a : Agent) (x : Act) :
    (a.act x).own.left = (decide (x = .markLeft) || a.own.left) := by
  cases x with
  | merge time l => exact congrArg MemberRecord.left (own_merge time a l)
  | publish node tags =>
    obtain ⟨own, h, -, hleft⟩ := act_publish a node tags
    rw [h]
    exact hleft
  | beat | markLeft | stop => rfl

theorem name_live (a : Agent) (acts : List Act) : (a.live acts).name = a.name := by
  induction acts generalizing a with
  | nil => rfl
  | cons x rest ih => exact (ih (a.act x)).trans (name_act a x)

theorem failureTimeout_live (a : Agent) (acts : List Act) :
    (a.live acts).failureTimeout = a.failureTimeout := by
  induction acts generalizing a with
  | nil => rfl
  | cons x rest ih => exact (ih (a.act x)).trans (failureTimeout_act a x)

theorem left_live (a : Agent) (acts : List Act) :
    (a.live acts).own.left = (decide (.markLeft ∈ acts) || a.own.left) := by
  induction acts generalizing a with
  | nil => rfl
  | cons x rest ih =>
    show ((a.act x).live rest).own.left = _
    -- the mark is among the later acts or is the first one
    rw [ih, left_act, ← Bool.or_assoc, Bool.or_comm (decide _), ← Bool.decide_or]
    simp only [List.mem_cons, eq_comm]

/-! ### Names -/

/-- Every record of the table stands under its own name, and none under that of
the agent. -/
structure WellNamed (a : Agent) : Prop where
  keyed : a.Keyed
  own : a.members.get? a.name = none

theorem wellNamed_create (name : String) (addr : SocketAddr) (seeds : List SocketAddr)
    (failureTimeout : Elapsed) : (create name addr seeds failureTimeout).WellNamed :=
  ⟨nofun, rfl⟩

theorem WellNamed.act (h : a.WellNamed) (x : Act) : (a.act x).WellNamed := by
  rcases members_act a x with ⟨time, l, rfl⟩ | ⟨-, hsame⟩
  · refine ⟨keyed_merge time h.keyed l, ?_⟩
    rw [name_act]
    exact (get?_merge_name time a l).trans h.own
  · refine ⟨fun k s hget => h.keyed k s (hsame ▸ hget), ?_⟩
    rw [name_act, hsame]
    exact h.own

theorem WellNamed.live (h : a.WellNamed) (acts : List Act) : (a.live acts).WellNamed := by
  induction acts generalizing a with
  | nil => exact h
  | cons x rest ih => exact ih (h.act x)

theorem Newest.isSome_iff {c : MemberRecord → Prop} {o : Option MemberRecord} (h : Newest c o) :
    o.isSome ↔ ∃ q, c q := by
  cases o with
  | none => exact ⟨nofun, fun ⟨q, hq⟩ => absurd hq (h q)⟩
  | some r => exact ⟨fun _ => ⟨r, h.1⟩, fun _ => rfl⟩

theorem isSome_record? : (a.record? k).isSome ↔ (a.members.get? k).isSome := by
  rw [record?, Option.isSome_map]

/-- The names that are known after a merge: those known before and, unless it is
the own one, those of the records that are merged. -/
theorem isSome_record?_merge (time : Nat) (a : Agent) (l : List MemberRecord) (k : String) :
    ((a.merge time l).record? k).isSome
      ↔ (a.record? k).isSome ∨ k ≠ a.name ∧ ∃ r ∈ l, r.name = k := by
  by_cases hk : k = a.name
  · -- nothing is taken in under the own name
    subst hk
    rw [record?, get?_merge_name, record?]
    simp
  · -- under another one there is a newest as soon as there is any
    have hnewest : Newest _ ((a.merge time l).record? k) := newest_merge hk (newest_record? a k)
    rw [hnewest.isSome_iff, exists_or, ← Option.isSome_iff_exists]
    simp only [ne_eq, hk, not_false_eq_true, true_and]

theorem isSome_record?_act (a : Agent) (x : Act) (k : String) :
    ((a.act x).record? k).isSome
      ↔ (a.record? k).isSome ∨ k ≠ a.name ∧ ∃ r ∈ x.records, r.name = k := by
  rcases members_act a x with ⟨time, l, rfl⟩ | ⟨hnone, hsame⟩
  · exact isSome_record?_merge time a l k
  · rw [hnone, record?, hsame, record?]
    simp

theorem isSome_record?_live (a : Agent) (acts : List Act) (k : String) :
    ((a.live acts).record? k).isSome
      ↔ (a.record? k).isSome ∨ k ≠ a.name ∧ ∃ r ∈ acts.flatMap Act.records, r.name = k := by
  induction acts generalizing a with
  | nil => simp [live]
  | cons x rest ih =>
    show (((a.act x).live rest).record? k).isSome ↔ _
    rw [ih, isSome_record?_act, name_act, or_assoc, ← and_or_left, List.flatMap_cons]
    simp only [List.mem_append, or_and_right, exists_or]

/-! ### The times of records -/

/-- After merging, a name has what it had, or a record of those merged that is
newer, with the time of the merge. -/
theorem get?_merge_or (time : Nat) (a : Agent) (l : List MemberRecord) (k : String) :
    (a.merge time l).members.get? k = a.members.get? k
    ∨ ∃ r, (a.merge time l).members.get? k = some ⟨r, time⟩
      ∧ ∀ s, a.members.get? k = some s → s.record.heartbeat < r.heartbeat := by
  induction l generalizing a with
  | nil => exact Or.inl rfl
  | cons r rest ih =>
    have hfirst := get?_mergeRecord time a r k
    rcases ih (a.mergeRecord time r) with hsame | ⟨q, hq, hnewer⟩
    · by_cases hnews : a.isNews r ∧ k = r.name
      · obtain ⟨hnews, rfl⟩ := hnews
        rw [if_pos ⟨hnews, rfl⟩] at hfirst
        exact Or.inr ⟨r, hsame.trans hfirst, (isNews_iff.mp hnews).2⟩
      · rw [if_neg hnews] at hfirst
        exact Or.inl (hsame.trans hfirst)
    · -- what is newer than the record left by the first merge is newer than that before
      refine Or.inr ⟨q, hq, fun s hs => ?_⟩
      obtain ⟨s', hs', hle⟩ := older_mergeRecord time a r k s hs
      exact Nat.lt_of_le_of_lt hle (hnewer s' hs')

/-- A name is stored for the first time, or with a larger heartbeat than before. -/
def Raises (a b : Agent) (k : String) : Prop :=
  ∃ r ∈ b.record? k, ∀ q ∈ a.record? k, q.heartbeat < r.heartbeat

instance (a b : Agent) (k : String) : Decidable (Raises a b k) :=
  inferInstanceAs (Decidable (∃ r ∈ b.record? k, ∀ q ∈ a.record? k, q.heartbeat < r.heartbeat))

theorem not_raises {b : Agent} (h : b.members.get? k = a.members.get? k) : ¬ Raises a b k := by
  rintro ⟨r, hr, hless⟩
  rw [record?, h] at hr
  exact Nat.lt_irrefl _ (hless r hr)

/-- The time of a merge. -/
def Act.time? : Act → Option Nat
  | .merge time _ => some time
  | _ => none

/-- The time of the last merge of a run that stored a name for the first time or
raised its heartbeat. -/
def lastRise? (k : String) : Agent → List Act → Option Nat
  | _, [] => none
  | a, x :: rest => (lastRise? k (a.act x) rest).or (if Raises a (a.act x) k then x.time? else none)

/-- **The time of a record changes where its name is raised**, and nowhere else. -/
theorem map_time_act (k : String) (a : Agent) (x : Act) :
    ((a.act x).members.get? k).map Sighting.time
      = (if Raises a (a.act x) k then x.time? else none).or
        ((a.members.get? k).map Sighting.time) := by
  -- where nothing changes the name is not raised
  have hold : (a.act x).members.get? k = a.members.get? k →
      ((a.act x).members.get? k).map Sighting.time
        = (if Raises a (a.act x) k then x.time? else none).or
          ((a.members.get? k).map Sighting.time) := by
    intro hsame
    rw [if_neg (not_raises hsame), hsame, Option.none_or]
  rcases members_act a x with ⟨time, l, rfl⟩ | ⟨-, hsame⟩
  · rcases get?_merge_or time a l k with hsame | ⟨r, hget, hnewer⟩
    · exact hold hsame
    · have hrise : Raises a (a.merge time l) k := by
        refine ⟨r, by rw [record?, hget]; rfl, fun q hq => ?_⟩
        obtain ⟨s, hs, rfl⟩ := Option.map_eq_some_iff.mp hq
        exact hnewer s hs
      show ((a.merge time l).members.get? k).map Sighting.time
        = (if Raises a (a.merge time l) k then some time else none).or _
      rw [hget, if_pos hrise]
      rfl
  · exact hold (congrArg (Table.get? · k) hsame)

/-- **In a run the time of a record is that of the last rise of its name.** -/
theorem map_time_live (k : String) (a : Agent) (acts : List Act) :
    ((a.live acts).members.get? k).map Sighting.time
      = (lastRise? k a acts).or ((a.members.get? k).map Sighting.time) := by
  induction acts generalizing a with
  | nil => rfl
  | cons x rest ih =>
    show (((a.act x).live rest).members.get? k).map Sighting.time = _
    rw [ih, map_time_act, lastRise?, Option.or_assoc]

/-! ### The view -/

/-- What the view lists: the own node, and what the table has. -/
theorem mem_view_iff {m : Member} : m ∈ a.view t
    ↔ m = a.ownMember ∨ ∃ k s, a.members.get? k = some s
      ∧ m = memberOf s.record (a.statusAt t s) := by
  simp only [Table.get?_eq_some_iff]
  rw [view, Member.sort, List.mem_mergeSort, List.mem_cons, Table.values, List.map_map,
    List.mem_map]
  refine or_congr_right ⟨?_, ?_⟩
  · rintro ⟨⟨k, s⟩, hmem, rfl⟩
    exact ⟨k, s, hmem, rfl⟩
  · rintro ⟨k, s, hmem, rfl⟩
    exact ⟨(k, s), hmem, rfl⟩

/-- The names that are listed are the own name and the keys of the table. -/
theorem WellNamed.names (h : a.WellNamed) (t : Nat) :
    (a.ownMember :: a.members.values.map fun s => memberOf s.record (a.statusAt t s)).map
      Member.name = a.name :: a.members.keys := by
  rw [List.map_cons, Table.values, List.map_map, List.map_map, Table.keys]
  refine congrArg (List.cons a.name) (List.map_congr_left fun e he => ?_)
  exact h.keyed e.1 e.2 (Table.get?_eq_some_iff.mpr he)

/-- Members are listed by name, each name once. -/
theorem WellNamed.ascending_view (h : a.WellNamed) (t : Nat) :
    ((a.view t).map Member.name).Pairwise (· < ·) := by
  refine ascending_sortByName Member.name ?_
  rw [h.names, List.nodup_cons, Table.mem_keys_iff, h.own]
  exact ⟨nofun, a.members.ascending.nodup_keys⟩

theorem WellNamed.mem_names_view (h : a.WellNamed) (t : Nat) (k : String) :
    k ∈ (a.view t).map Member.name ↔ k = a.name ∨ (a.record? k).isSome := by
  have hperm := (List.mergeSort_perm (a.ownMember :: a.members.values.map fun s =>
    memberOf s.record (a.statusAt t s)) fun m m' => decide (m.name ≤ m'.name)).map Member.name
  rw [isSome_record?, ← Table.mem_keys_iff, ← List.mem_cons, ← h.names t]
  exact hperm.mem_iff

/-! ### Records that are no news -/

/-- Records that are not newer than those known, or that are of the own node. -/
def Stale (a : Agent) (l : List MemberRecord) : Prop :=
  ∀ r ∈ l, r.name = a.name ∨ ∃ q, a.record? r.name = some q ∧ r.heartbeat ≤ q.heartbeat

theorem Stale.merge_eq (h : a.Stale l) (time : Nat) : a.merge time l = a := by
  refine merge_eq_self fun r hr hnews => ?_
  obtain ⟨hname, hnewer⟩ := isNews_iff_record?.mp hnews
  rcases h r hr with hown | ⟨q, hq, hle⟩
  · exact hname hown
  · exact Nat.not_lt_of_le hle (hnewer q hq)

theorem Stale.mergeAll_eq {batches : List (Nat × List MemberRecord)}
    (h : a.Stale (recordsOf batches)) : a.mergeAll batches = a := by
  induction batches with
  | nil => rfl
  | cons batch rest ih =>
    have hfirst : a.Stale batch.2 := fun r hr => h r (List.mem_append_left _ hr)
    have hrest : a.Stale (recordsOf rest) := fun r hr => h r (List.mem_append_right _ hr)
    show (a.merge batch.1 batch.2).mergeAll rest = a
    rw [hfirst.merge_eq, ih hrest]

/-- **Failure detection follows heartbeats only.**  Whatever an agent has done since
it was created, its view lists its own node and all others of which it has merged
records, by name and each once.  The own node has left if the agent was told so.
Another node has left if the record that is stored says so; else it has failed if
its name was last raised longer ago than the timeout.  Merging stale records changes
no later view, whatever is done in between. -/
theorem view_live (name : String) (addr : SocketAddr) (seeds : List SocketAddr)
    (timeout : Elapsed) (acts : List Act) (t : Nat) :
    let a := create name addr seeds timeout
    let b := a.live acts
    ((b.view t).map Member.name).Pairwise (· < ·)
    ∧ (∀ k, k ∈ (b.view t).map Member.name
      ↔ k = name ∨ ∃ r ∈ acts.flatMap Act.records, r.name = k)
    ∧ (∀ m ∈ b.view t, m.name = name →
      m.status = if .markLeft ∈ acts then .left else .alive)
    ∧ (∀ m ∈ b.view t, m.name ≠ name →
      ∃ r τ, b.record? m.name = some r ∧ lastRise? m.name a acts = some τ
        ∧ m.status = if r.left then .left
          else if timeout.nanos < t - τ then .failed else .alive)
    ∧ ∀ (stale : List (Nat × List MemberRecord)) (later : List Act) (t' : Nat),
      b.Stale (recordsOf stale) →
        ((b.mergeAll stale).live later).view t' = (b.live later).view t' := by
  intro a b
  have hnamed : b.WellNamed := (wellNamed_create name addr seeds timeout).live acts
  have hname : b.name = name := name_live a acts
  refine ⟨hnamed.ascending_view t, ?names, ?own, ?others, ?stale⟩
  case names =>
    intro k
    rw [hnamed.mem_names_view, hname, isSome_record?_live]
    have hnone : (a.record? k).isSome ↔ False := Iff.of_eq Bool.false_eq_true
    rw [hnone, false_or]
    -- records of the own node are not kept, but it is listed anyway
    show (k = name ∨ k ≠ name ∧ _) ↔ _
    tauto
  case own =>
    intro m hm hown
    rcases mem_view_iff.mp hm with rfl | ⟨k, s, hget, rfl⟩
    · have hleft : b.own.left = decide (.markLeft ∈ acts) :=
        (left_live a acts).trans (Bool.or_false _)
      show (if b.own.left then _ else _) = _
      simp only [hleft, decide_eq_true_eq]
    · -- the own name is not in the table
      have hk : k = b.name := (hnamed.keyed k s hget).symm.trans (hown.trans hname.symm)
      rw [hk, hnamed.own] at hget
      cases hget
  case others =>
    intro m hm hother
    rcases mem_view_iff.mp hm with rfl | ⟨k, s, hget, rfl⟩
    · exact absurd hname hother
    · have hk : s.record.name = k := hnamed.keyed k s hget
      have htime := map_time_live k a acts
      have hfresh : (a.members.get? k).map Sighting.time = none := rfl
      rw [hget, hfresh, Option.or_none] at htime
      refine ⟨s.record, s.time, ?_, ?_, ?_⟩
      · show b.record? s.record.name = _
        rw [hk, record?, hget]
        rfl
      · show lastRise? s.record.name a acts = _
        rw [hk, ← htime]
        rfl
      · have htimeout : b.failureTimeout = timeout := failureTimeout_live a acts
        show b.statusAt t s = _
        rw [statusAt, htimeout]
  case stale =>
    intro stale later t' hstale
    rw [hstale.mergeAll_eq]

/-- Three merges, the second of a record that is no news and of the own node, the
third of a node that has left. -/
def threeMerges : List Act :=
  [.merge 10 [beatOf "b" 5, beatOf "b" 7, beatOf "b" 6], .beat,
    .merge 15 [beatOf "b" 7, beatOf "a" 99],
    .merge 18 [{ beatOf "c" 1 with left := true }]]

/-- At exactly the timeout a member is alive, and a moment later it has failed; to
hear of it again from others does not change that. -/
theorem view_live_threeMerges :
    let a := create "a" default [] ⟨10⟩
    let b := a.live threeMerges
    let stale := [(19, [beatOf "b" 7, beatOf "c" 0])]
    (∀ m ∈ b.view 20, m.name = "b" → m.name ≠ "a" ∧ m.status = .alive)
    ∧ (∀ m ∈ b.view 21, m.name = "b" → m.name ≠ "a" ∧ m.status = .failed)
    ∧ (∀ m ∈ b.view 21, m.name = "a" → m.status = .alive)
    ∧ b.Stale (recordsOf stale)
    ∧ ((b.mergeAll stale).live [.markLeft]).view 21 = (b.live [.markLeft]).view 21 := by
  intro a b stale
  have hstatus : ∀ t, ∀ m ∈ b.view t, m.name = "b" →
      m.name ≠ "a" ∧ m.status = if 10 < t - 10 then .failed else .alive := by
    intro t m hm hname
    have hother : m.name ≠ "a" := by
      rw [hname]
      decide
    obtain ⟨-, -, -, hothers, -⟩ := view_live "a" default [] ⟨10⟩ threeMerges t
    obtain ⟨r, τ, hr, hτ, hstatus⟩ := hothers m hm hother
    rw [hname] at hr hτ
    have hrecord : b.record? "b" = some (beatOf "b" 7) := by decide
    have hrise : lastRise? "b" a threeMerges = some 10 := by decide
    cases hrecord.symm.trans hr
    cases hrise.symm.trans hτ
    exact ⟨hother, hstatus⟩
  have hstale : b.Stale (recordsOf stale) := by
    intro r hr
    simp only [stale, recordsOf, List.flatMap_cons, List.flatMap_nil, List.append_nil,
      List.mem_cons, List.not_mem_nil, or_false] at hr
    rcases hr with rfl | rfl
    · exact Or.inr ⟨beatOf "b" 7, by decide, by decide⟩
    · exact Or.inr ⟨{ beatOf "c" 1 with left := true }, by decide, by decide⟩
  obtain ⟨-, -, hown, -, hsame⟩ := view_live "a" default [] ⟨10⟩ threeMerges 21
  refine ⟨hstatus 20, hstatus 21, fun m hm hname => ?_, hstale, hsame stale [.markLeft] 21 hstale⟩
  exact (hown m hm hname).trans (if_neg (by decide))

end Rendezvous.Agent
