/-
Rendezvous/Proofs/Agent.lean

What merging does to the records of an agent.

Merging changes the table of members only.  Of what the table holds after it
every record was there before or is one of those merged (`mem_others_merge`),
and under no name does the heartbeat go down (`older_merge`).
-/
import Rendezvous.Gossip.Agent
import Rendezvous.Proofs.Table

namespace Rendezvous.Agent

/-! ### Publishing -/

/-- An agent that has advertised tags. -/
def advertising (a : Agent) (tags : TagSet) : Agent :=
  { a with own := { a.own with tags, heartbeat := a.own.heartbeat + 1 } }

/-- Tags are advertised for the own node, and with a beat. -/
theorem publishTags_own {a : Agent} {node : String} (h : node = a.name) (tags : TagSet) :
    a.publishTags node tags = (.ok (), a.advertising tags) := if_pos h

/-- Those of another node are refused, before anything has changed. -/
theorem publishTags_other {a : Agent} {node : String} (h : node ≠ a.name) (tags : TagSet) :
    a.publishTags node tags = (.error (.unknownNode node), a) := if_neg h

theorem eq_of_refused {a b : Agent} {node : String} {tags : TagSet} {e : Error}
    (h : a.publishTags node tags = (.error e, b)) : b = a := by
  by_cases hname : node = a.name
  · rw [publishTags_own hname] at h
    cases h
  · rw [publishTags_other hname] at h
    cases h
    rfl

/-! ### One record -/

theorem isNews_iff {a : Agent} {r : MemberRecord} :
    a.isNews r ↔ r.name ≠ a.name
      ∧ ∀ s, a.members.get? r.name = some s → s.record.heartbeat < r.heartbeat := by
  rw [isNews, Bool.and_eq_true, decide_eq_true_eq]
  refine and_congr_right fun _ => ?_
  rcases a.members.get? r.name with _ | s
  · exact ⟨fun _ => nofun, fun _ => rfl⟩
  · simp

theorem get?_mergeRecord (time : Nat) (a : Agent) (r : MemberRecord) (k : String) :
    (a.mergeRecord time r).members.get? k
      = if a.isNews r ∧ k = r.name then some ⟨r, time⟩ else a.members.get? k := by
  rw [mergeRecord]
  by_cases hnews : a.isNews r
  · rw [if_pos hnews]
    show (a.members.insert r.name ⟨r, time⟩).get? k = _
    rw [Table.get?_insert]
    simp only [hnews, true_and]
  · rw [if_neg hnews, if_neg fun h => hnews h.1]

@[simp] theorem own_mergeRecord (time : Nat) (a : Agent) (r : MemberRecord) :
    (a.mergeRecord time r).own = a.own := by
  rw [mergeRecord]
  split <;> rfl

/-! ### Several records -/

@[simp] theorem own_merge (time : Nat) (a : Agent) (l : List MemberRecord) :
    (a.merge time l).own = a.own := by
  induction l generalizing a with
  | nil => rfl
  | cons r rest ih =>
    show ((a.mergeRecord time r).merge time rest).own = a.own
    rw [ih, own_mergeRecord]

/-- What the table holds under a name, after merging. -/
theorem get?_merge {time : Nat} {a : Agent} {l : List MemberRecord} {k : String} {s : Sighting}
    (h : (a.merge time l).members.get? k = some s) :
    a.members.get? k = some s ∨ s.record ∈ l := by
  induction l generalizing a with
  | nil => exact Or.inl h
  | cons r rest ih =>
    -- the rest is merged into the table that the first record leaves
    have hrest : ((a.mergeRecord time r).merge time rest).members.get? k = some s := h
    rcases ih hrest with hold | hnew
    · rw [get?_mergeRecord] at hold
      split at hold
      · cases hold
        exact Or.inr (List.mem_cons_self ..)
      · exact Or.inl hold
    · exact Or.inr (List.mem_cons_of_mem _ hnew)

theorem mem_others_iff {a : Agent} {r : MemberRecord} :
    r ∈ a.others ↔ ∃ k s, a.members.get? k = some s ∧ s.record = r := by
  simp only [Table.get?_eq_some_iff]
  show r ∈ (a.members.toList.map Prod.snd).map Sighting.record ↔ _
  rw [List.map_map, List.mem_map]
  constructor
  · rintro ⟨⟨k, s⟩, hmem, hrec⟩
    exact ⟨k, s, hmem, hrec⟩
  · rintro ⟨k, s, hmem, hrec⟩
    exact ⟨(k, s), hmem, hrec⟩

theorem mem_others_merge {time : Nat} {a : Agent} {l : List MemberRecord} {r : MemberRecord}
    (h : r ∈ (a.merge time l).others) : r ∈ a.others ∨ r ∈ l := by
  obtain ⟨k, s, hget, rfl⟩ := mem_others_iff.mp h
  rcases get?_merge hget with hold | hnew
  · exact Or.inl (mem_others_iff.mpr ⟨k, s, hold, rfl⟩)
  · exact Or.inr hnew

/-! ### Heartbeats -/

/-- Under a name the first agent knows, the second knows no older record. -/
def Older (a b : Agent) : Prop :=
  ∀ k s, a.members.get? k = some s →
    ∃ s', b.members.get? k = some s' ∧ s.record.heartbeat ≤ s'.record.heartbeat

theorem Older.refl (a : Agent) : Older a a := fun _ s h => ⟨s, h, Nat.le_refl _⟩

theorem Older.trans {a b c : Agent} (hab : Older a b) (hbc : Older b c) : Older a c := by
  intro k s h
  obtain ⟨s', h', hle⟩ := hab k s h
  obtain ⟨s'', h'', hle'⟩ := hbc k s' h'
  exact ⟨s'', h'', Nat.le_trans hle hle'⟩

theorem older_mergeRecord (time : Nat) (a : Agent) (r : MemberRecord) :
    Older a (a.mergeRecord time r) := by
  intro k s h
  rw [get?_mergeRecord]
  by_cases hnew : a.isNews r ∧ k = r.name
  · obtain ⟨hnews, rfl⟩ := hnew
    rw [if_pos ⟨hnews, rfl⟩]
    exact ⟨_, rfl, Nat.le_of_lt ((isNews_iff.mp hnews).2 s h)⟩
  · rw [if_neg hnew]
    exact ⟨s, h, Nat.le_refl _⟩

/-- **Merging never goes back** to an older record of any node. -/
theorem older_merge (time : Nat) (a : Agent) (l : List MemberRecord) :
    Older a (a.merge time l) := by
  induction l generalizing a with
  | nil => exact Older.refl a
  | cons r rest ih => exact (older_mergeRecord time a r).trans (ih (a.mergeRecord time r))

/-! ### Names -/

/-- Every record of the table stands under its own name. -/
def Keyed (a : Agent) : Prop := ∀ k s, a.members.get? k = some s → s.record.name = k

theorem keyed_merge (time : Nat) {a : Agent} (h : a.Keyed) (l : List MemberRecord) :
    (a.merge time l).Keyed := by
  induction l generalizing a with
  | nil => exact h
  | cons r rest ih =>
    apply ih
    intro k s hget
    rw [get?_mergeRecord] at hget
    split at hget
    · rename_i hnew
      cases hget
      exact hnew.2.symm
    · exact h k s hget

end Rendezvous.Agent
