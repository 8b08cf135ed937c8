/-
Rendezvous/Proofs/Convergence.lean

Member tables converge.

Under each name but its own an agent ends up with a newest one of all records
of that name, those it has merged and the one it had (`newest_mergeAll`).  Where
the records of one name differ in their heartbeats there is only one newest, so
neither their order, nor the batches in which they come, nor repetitions matter
(`mergeAll_converges`).
-/
import Rendezvous.Proofs.Agent

namespace Rendezvous.Agent

variable {a : Agent} {k : String} {r : MemberRecord} {time : Nat}

/-! ### The record under a name -/

/-- The record that an agent has under a name. -/
def record? (a : Agent) (k : String) : Option MemberRecord :=
  (a.members.get? k).map Sighting.record

theorem record?_mergeRecord (time : Nat) (a : Agent) (r : MemberRecord) (k : String) :
    (a.mergeRecord time r).record? k
      = if a.isNews r ∧ k = r.name then some r else a.record? k := by
  rw [record?, get?_mergeRecord]
  split <;> rfl

theorem isNews_iff_record? :
    a.isNews r ↔ r.name ≠ a.name ∧ ∀ q, a.record? r.name = some q → q.heartbeat < r.heartbeat := by
  rw [isNews_iff]
  refine and_congr_right fun _ => ⟨?_, ?_⟩
  · intro h q hq
    obtain ⟨s, hs, rfl⟩ := Option.map_eq_some_iff.mp hq
    exact h s hs
  · intro h s hs
    exact h s.record (Option.map_eq_some_iff.mpr ⟨s, hs, rfl⟩)

@[simp] theorem name_mergeRecord (time : Nat) (a : Agent) (r : MemberRecord) :
    (a.mergeRecord time r).name = a.name :=
  congrArg MemberRecord.name (own_mergeRecord time a r)

@[simp] theorem name_merge (time : Nat) (a : Agent) (l : List MemberRecord) :
    (a.merge time l).name = a.name :=
  congrArg MemberRecord.name (own_merge time a l)

/-- Nothing is taken in under the own name. -/
theorem get?_merge_name (time : Nat) (a : Agent) (l : List MemberRecord) :
    (a.merge time l).members.get? a.name = a.members.get? a.name := by
  induction l generalizing a with
  | nil => rfl
  | cons r rest ih =>
    have hrest := ih (a.mergeRecord time r)
    rw [name_mergeRecord] at hrest
    show ((a.mergeRecord time r).merge time rest).members.get? a.name = _
    rw [hrest, get?_mergeRecord, if_neg]
    rintro ⟨hnews, hname⟩
    exact (isNews_iff.mp hnews).1 hname.symm

/-! ### Newest records -/

/-- A newest record of a class; there is none only if the class is empty. -/
def Newest (c : MemberRecord → Prop) : Option MemberRecord → Prop
  | none => ∀ q, ¬ c q
  | some r => c r ∧ ∀ q, c q → q.heartbeat ≤ r.heartbeat

variable {c c' : MemberRecord → Prop} {o o' : Option MemberRecord}

theorem Newest.congr (h : Newest c o) (hc : ∀ q, c q ↔ c' q) : Newest c' o := by
  have heq : c = c' := funext fun q => propext (hc q)
  exact heq ▸ h

/-- Where heartbeats tell records apart there is one newest record only. -/
theorem Newest.unique (h : Newest c o) (h' : Newest c o')
    (hone : ∀ q q', c q → c q' → q.heartbeat = q'.heartbeat → q = q') : o = o' := by
  cases o with
  | none =>
    cases o' with
    | none => rfl
    | some r' => exact absurd h'.1 (h r')
  | some r =>
    cases o' with
    | none => exact absurd h.1 (h' r)
    | some r' =>
      have hbeat : r.heartbeat = r'.heartbeat := Nat.le_antisymm (h'.2 r h.1) (h.2 r' h'.1)
      rw [hone r r' h.1 h'.1 hbeat]

/-- Before anything is merged the record under a name is the newest. -/
theorem newest_record? (a : Agent) (k : String) :
    Newest (fun q => a.record? k = some q) (a.record? k) := by
  rcases hrec : a.record? k with _ | s
  · exact nofun
  · refine ⟨rfl, fun q hq => ?_⟩
    cases hq
    exact Nat.le_refl _

/-- Merging one record leaves a newest one of those that were and this one. -/
theorem newest_mergeRecord (hk : k ≠ a.name) (h : Newest c (a.record? k)) :
    Newest (fun q => c q ∨ q = r ∧ r.name = k) ((a.mergeRecord time r).record? k) := by
  rw [record?_mergeRecord]
  by_cases hname : k = r.name
  · subst hname
    by_cases hnews : a.isNews r
    · -- whatever was there is older
      rw [if_pos ⟨hnews, rfl⟩]
      refine ⟨Or.inr ⟨rfl, rfl⟩, ?_⟩
      rintro q (hq | ⟨rfl, -⟩)
      · rcases hrec : a.record? r.name with _ | s
        · rw [hrec] at h
          exact absurd hq (h q)
        · rw [hrec] at h
          exact Nat.le_trans (h.2 q hq) (Nat.le_of_lt ((isNews_iff_record?.mp hnews).2 s hrec))
      · exact Nat.le_refl _
    · -- what was there is no older, or the record would be news
      rw [if_neg fun hboth => hnews hboth.1]
      rcases hrec : a.record? r.name with _ | s
      · exact absurd (isNews_iff_record?.mpr ⟨hk, fun q hq => by rw [hrec] at hq; cases hq⟩) hnews
      · rw [hrec] at h
        have hle : r.heartbeat ≤ s.heartbeat := by
          by_contra hlt
          refine hnews (isNews_iff_record?.mpr ⟨hk, fun q hq => ?_⟩)
          rw [hrec] at hq
          cases hq
          exact Nat.lt_of_not_le hlt
        refine ⟨Or.inl h.1, ?_⟩
        rintro q (hq | ⟨rfl, -⟩)
        · exact h.2 q hq
        · exact hle
  · rw [if_neg fun hboth => hname hboth.2]
    refine h.congr fun q => ⟨Or.inl, ?_⟩
    rintro (hq | ⟨-, hr⟩)
    · exact hq
    · exact absurd hr.symm hname

theorem newest_merge {l : List MemberRecord} (hk : k ≠ a.name) (h : Newest c (a.record? k)) :
    Newest (fun q => c q ∨ q ∈ l ∧ q.name = k) ((a.merge time l).record? k) := by
  induction l generalizing a c with
  | nil => exact h.congr fun q => by simp
  | cons r rest ih =>
    have hrest : k ≠ (a.mergeRecord time r).name := by rwa [name_mergeRecord]
    refine (ih hrest (newest_mergeRecord hk h)).congr fun q => ?_
    rw [List.mem_cons, or_assoc]
    refine or_congr_right ⟨?_, ?_⟩
    · rintro (⟨rfl, hname⟩ | ⟨hq, hname⟩)
      · exact ⟨Or.inl rfl, hname⟩
      · exact ⟨Or.inr hq, hname⟩
    · rintro ⟨rfl | hq, hname⟩
      · exact Or.inl ⟨rfl, hname⟩
      · exact Or.inr ⟨hq, hname⟩

/-! ### Merging again -/

theorem merge_eq_self {l : List MemberRecord} (h : ∀ r ∈ l, ¬ a.isNews r) :
    a.merge time l = a := by
  induction l with
  | nil => rfl
  | cons r rest ih =>
    have hr : a.mergeRecord time r = a := if_neg (h r (List.mem_cons_self ..))
    show (a.mergeRecord time r).merge time rest = a
    rw [hr]
    exact ih fun q hq => h q (List.mem_cons_of_mem _ hq)

/-- After a record has been merged there is none that is older in its place. -/
theorem le_of_mem_merge {l : List MemberRecord} (h : r ∈ l) (hname : r.name ≠ a.name) :
    ∃ q, (a.merge time l).record? r.name = some q ∧ r.heartbeat ≤ q.heartbeat := by
  have hnewest : Newest _ ((a.merge time l).record? r.name) :=
    newest_merge hname (newest_record? a r.name)
  rcases hrec : (a.merge time l).record? r.name with _ | q
  · rw [hrec] at hnewest
    exact absurd (Or.inr ⟨h, rfl⟩) (hnewest r)
  · rw [hrec] at hnewest
    exact ⟨q, rfl, hnewest.2 r (Or.inr ⟨h, rfl⟩)⟩

/-- What has been merged is no news. -/
theorem not_isNews_merge {l : List MemberRecord} (h : r ∈ l) : ¬ (a.merge time l).isNews r := by
  intro hnews
  obtain ⟨hname, hold⟩ := isNews_iff_record?.mp hnews
  rw [name_merge] at hname
  obtain ⟨q, hq, hle⟩ := le_of_mem_merge h hname
  exact Nat.not_lt_of_le hle (hold q hq)

/-- **Merging records again right after merging them changes nothing**, neither
records nor times. -/
theorem merge_merge (time time' : Nat) (a : Agent) (l : List MemberRecord) :
    (a.merge time l).merge time' l = a.merge time l :=
  merge_eq_self fun _ hr => not_isNews_merge hr

/-! ### Batches -/

/-- Take in batches of records, each at its own time. -/
def mergeAll (a : Agent) (batches : List (Nat × List MemberRecord)) : Agent :=
  batches.foldl (fun a batch => a.merge batch.1 batch.2) a

/-- The records of all batches. -/
def recordsOf (batches : List (Nat × List MemberRecord)) : List MemberRecord :=
  batches.flatMap Prod.snd

/-- A record under a name is there to be had: the agent has it already, or it
is among some that are to be merged. -/
def Offered (a : Agent) (l : List MemberRecord) (k : String) (r : MemberRecord) : Prop :=
  a.record? k = some r ∨ r ∈ l ∧ r.name = k

theorem get?_mergeAll_name (a : Agent) (batches : List (Nat × List MemberRecord)) :
    (a.mergeAll batches).members.get? a.name = a.members.get? a.name := by
  induction batches generalizing a with
  | nil => rfl
  | cons batch rest ih =>
    have hrest := ih (a.merge batch.1 batch.2)
    rw [name_merge, get?_merge_name] at hrest
    exact hrest

theorem newest_mergeAll_of (hk : k ≠ a.name) (h : Newest c (a.record? k))
    (batches : List (Nat × List MemberRecord)) :
    Newest (fun q => c q ∨ q ∈ recordsOf batches ∧ q.name = k)
      ((a.mergeAll batches).record? k) := by
  induction batches generalizing a c with
  | nil => exact h.congr fun q => by simp [recordsOf]
  | cons batch rest ih =>
    have hrest : k ≠ (a.merge batch.1 batch.2).name := by rwa [name_merge]
    refine (ih hrest (newest_merge hk h)).congr fun q => ?_
    show (c q ∨ q ∈ batch.2 ∧ q.name = k) ∨ q ∈ recordsOf rest ∧ q.name = k
      ↔ c q ∨ q ∈ recordsOf (batch :: rest) ∧ q.name = k
    rw [or_assoc, ← or_and_right, recordsOf, recordsOf, List.flatMap_cons, List.mem_append]

/-- **What an agent has under a name in the end is a newest** of all records
offered under it. -/
theorem newest_mergeAll (hk : k ≠ a.name) (batches : List (Nat × List MemberRecord)) :
    Newest (a.Offered (recordsOf batches) k) ((a.mergeAll batches).record? k) :=
  newest_mergeAll_of hk (newest_record? a k) batches

/-- **Tables converge.**  If the records offered under a name are told apart by
their heartbeats, only the set of records counts: under every name but the own
one the newest is left, and under the own one nothing changes.  Merging a batch
once more changes neither records nor times. -/
theorem mergeAll_converges (a : Agent) {l l' : List (Nat × List MemberRecord)}
    (hsame : ∀ r, r ∈ recordsOf l ↔ r ∈ recordsOf l')
    (hone : ∀ k r q, a.Offered (recordsOf l) k r → a.Offered (recordsOf l) k q →
      r.heartbeat = q.heartbeat → r = q) :
    (∀ k ≠ a.name, (a.mergeAll l).record? k = (a.mergeAll l').record? k
      ∧ Newest (a.Offered (recordsOf l) k) ((a.mergeAll l).record? k))
    ∧ (a.mergeAll l).members.get? a.name = a.members.get? a.name
    ∧ ∀ (b : Agent) (time time' : Nat) (batch : List MemberRecord),
      (b.merge time batch).merge time' batch = b.merge time batch := by
  refine ⟨fun k hk => ⟨?_, newest_mergeAll hk l⟩, get?_mergeAll_name a l, ?_⟩
  · have hoffered : ∀ q, a.Offered (recordsOf l') k q ↔ a.Offered (recordsOf l) k q := fun q =>
      or_congr_right (and_congr_left' (hsame q).symm)
    have hnewest' := (newest_mergeAll hk l').congr hoffered
    exact (newest_mergeAll hk l).unique hnewest' (hone k)
  · intro b time time' batch
    exact merge_merge time time' b batch

/-- A record of which only the name and the heartbeat are given. -/
def beatOf (name : String) (heartbeat : Nat) : MemberRecord :=
  { (default : MemberRecord) with name, heartbeat }

/-- An agent that has heard of one other node. -/
def acquainted : Agent where
  own := beatOf "a" 4
  seeds := []
  failureTimeout := ⟨10000000000⟩
  members := Table.empty.insert "b" ⟨beatOf "b" 5, 3⟩

/-- Four records, one of them of the agent itself, in two batches and in three
others. -/
theorem mergeAll_converges_acquainted :
    let l := [(10, [beatOf "b" 3, beatOf "c" 1]), (11, [beatOf "b" 7, beatOf "a" 9])]
    let l' := [(20, [beatOf "b" 7, beatOf "a" 9, beatOf "b" 7]), (21, []),
      (22, [beatOf "c" 1, beatOf "b" 3])]
    ∀ k ≠ "a", (acquainted.mergeAll l).record? k = (acquainted.mergeAll l').record? k
      ∧ Newest (acquainted.Offered (recordsOf l) k) ((acquainted.mergeAll l).record? k) := by
  intro l l'
  have hall : ∀ q ∈ beatOf "b" 5 :: recordsOf l, ∀ q' ∈ beatOf "b" 5 :: recordsOf l,
      q.name = q'.name → q.heartbeat = q'.heartbeat → q = q' := by decide
  have hknown : ∀ k q, acquainted.Offered (recordsOf l) k q →
      q ∈ beatOf "b" 5 :: recordsOf l ∧ q.name = k := by
    rintro k q (hold | ⟨hq, hname⟩)
    · rw [record?, acquainted, Table.get?_insert] at hold
      split at hold
      · rename_i hk
        cases hold
        exact ⟨List.mem_cons_self .., hk.symm⟩
      · cases hold
    · exact ⟨List.mem_cons_of_mem _ hq, hname⟩
  refine (@mergeAll_converges acquainted l l' ?_ ?_).1
  · intro r
    simp only [recordsOf, l, l', List.flatMap_cons, List.flatMap_nil, List.mem_append,
      List.mem_cons, List.not_mem_nil]
    tauto
  · intro k q q' hq hq' hbeat
    obtain ⟨hmem, hname⟩ := hknown k q hq
    obtain ⟨hmem', hname'⟩ := hknown k q' hq'
    exact hall q hmem q' hmem' (hname.trans hname'.symm) hbeat

end Rendezvous.Agent
