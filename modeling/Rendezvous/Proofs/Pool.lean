/-
Rendezvous/Proofs/Pool.lean

Pools over whole runs.

A pool is refreshed, drawn from, and told of failures, in any order.  A failure may
be told late, of a candidate that was listed by an earlier refresh; what counts is
the candidate and not its address.  Along a run it is noted which candidates the last
refresh has created and which came before (`History`), and one step of a run keeps
what there is to say of a pool (`Exact.next`):

* the generation has candidates of the last refresh, in ascending order of their
  addresses;
* of these only such have been taken out as have failed since.

So whoever draws gets a candidate of the last refresh that has never failed, or
nothing when all of them have (`run_exact`).

A counter has 32 bits and is zero again after 2 ^ 32 failures; runs are such that
fewer are recorded against each candidate.
-/
import Rendezvous.Proofs.Attempts
import Rendezvous.Proofs.Listing

namespace Rendezvous.Pool

variable {d : Draws} {used : Nat} {p p' : Pool} {c : Candidate}

/-! ### Counters -/

/-- Fewer failures are recorded against each candidate than its counter holds. -/
def Few (p : Pool) : Prop := ∀ c, p.failed.count c < Nat.pow 2 32

theorem Few.isHealthy_iff (h : p.Few) : p.isHealthy c ↔ c ∉ p.failed := by
  rw [isHealthy, decide_eq_true_eq, failures, Nat.mod_eq_of_lt (h c), List.count_eq_zero]

/-- Drawing keeps who has not failed. -/
theorem Few.mem_of_sifted (h : p.Few) {out : List Candidate} (hout : Sifted p out p')
    (hc : c ∈ p.current.candidates) (hgood : c ∉ p.failed) : c ∈ p'.current.candidates :=
  hout.kept hc (isHealthy_iff_failures.mp (h.isHealthy_iff.mpr hgood))

/-! ### Drawing -/

/-- A candidate that is drawn is still listed and has never failed. -/
theorem pickFrom_eq_some (h : p.Few) (hpick : (pickFrom d used p).candidate = some c) :
    c ∈ (pickFrom d used p).pool.current.candidates ∧ c ∉ p.failed := by
  obtain ⟨hc, hhealthy⟩ := healthy_of_pickFrom hpick
  have hgood : c ∉ p.failed := h.isHealthy_iff.mp hhealthy
  obtain ⟨out, hout⟩ := sifted_pickFrom d used p
  exact ⟨h.mem_of_sifted hout hc hgood, hgood⟩

/-- Nothing is drawn exactly if every listed candidate has failed. -/
theorem pickFrom_eq_none_iff (h : p.Few) :
    (pickFrom d used p).candidate = none ↔ ∀ c ∈ p.current.candidates, c ∈ p.failed := by
  simp only [candidate_eq_none_iff, h.isHealthy_iff, Classical.not_not]

/-- The addresses after a refresh are those it was given, in order. -/
theorem addrs_replace {addrs : List SocketAddr} :
    (p.replace addrs).current.addrs = SocketAddr.listing addrs := by
  show (List.map _ _).map Candidate.addr = _
  rw [List.map_map]
  exact List.map_id _

/-! ### Runs -/

/-- What is done with a pool. -/
inductive Event where
  | refresh (addrs : List SocketAddr)
  | pick (d : Draws)
  | fail (c : Candidate)

/-- A pool, and what has been done with it. -/
structure History where
  pool : Pool := {}
  /-- The addresses of the last refresh. -/
  asked : List SocketAddr := []
  /-- The candidates that it has created. -/
  created : List Candidate := []
  /-- The candidates of the refreshes before. -/
  former : List Candidate := []
  /-- The candidates against which a failure was recorded after the last refresh. -/
  since : List Candidate := []

namespace History

def next (w : History) : Event → History
  | .refresh addrs =>
    { pool := w.pool.replace addrs
      asked := addrs
      created := (w.pool.replace addrs).current.candidates
      former := w.former ++ w.created
      since := [] }
  | .pick d => { w with pool := (w.pool.pickHealthy d).pool }
  | .fail c => { w with pool := w.pool.recordFailure c, since := c :: w.since }

/-- What may be done next.  Failures are recorded against candidates that have been
created, whenever that was, and fewer than 2 ^ 32 against each. -/
inductive Allows (w : History) : Event → Prop
  | refresh (addrs : List SocketAddr) : Allows w (.refresh addrs)
  | pick (d : Draws) : Allows w (.pick d)
  | fail {c : Candidate} (hmade : c ∈ w.former ∨ c ∈ w.created)
    (hfew : w.pool.failed.count c + 1 < Nat.pow 2 32) : Allows w (.fail c)

/-- A run: each event is allowed by what was done before. -/
def Run (w : History) : List Event → Prop
  | [] => True
  | e :: rest => w.Allows e ∧ (w.next e).Run rest

/-- What events make of a pool. -/
def after (w : History) (events : List Event) : History := events.foldl next w

variable {w : History} {e : Event} {events : List Event}

theorem after_cons (w : History) (e : Event) (events : List Event) :
    w.after (e :: events) = (w.next e).after events := rfl

/-! ### What a step keeps -/

/-- What there is to say of a pool along a run. -/
structure Exact (w : History) : Prop where
  few : w.pool.Few
  addrs : w.created.map Candidate.addr = SocketAddr.listing w.asked
  sublist : w.pool.current.candidates.Sublist w.created
  kept : ∀ c ∈ w.created, c ∉ w.pool.failed → c ∈ w.pool.current.candidates
  made : ∀ c ∈ w.pool.failed, c ∈ w.former ∨ c ∈ w.created
  numbered : ∀ c, c ∈ w.former ∨ c ∈ w.created → c.refresh < w.pool.nextId
  apart : ∀ c ∈ w.former, c ∉ w.created
  since : ∀ c ∈ w.created, c ∈ w.pool.failed → c ∈ w.since

theorem exact_start : Exact {} where
  few _ := Nat.two_pow_pos 32
  addrs := by
    show [] = SocketAddr.collapse (List.mergeSort [] _)
    rw [List.mergeSort_nil, SocketAddr.collapse]
    exact nofun
  sublist := List.Sublist.refl []
  kept := nofun
  made := nofun
  numbered := by
    rintro c (hc | hc)
    · cases hc
    · cases hc
  apart := nofun
  since := nofun

/-- A refresh creates a candidate of its own number for each address. -/
theorem mem_replace {addrs : List SocketAddr} : c ∈ (p.replace addrs).current.candidates
    ↔ c.refresh = p.nextId ∧ c.addr ∈ addrs := by
  rw [← SocketAddr.mem_listing (l := addrs)]
  show c ∈ (SocketAddr.listing addrs).map _ ↔ _
  rw [List.mem_map]
  constructor
  · rintro ⟨a, ha, rfl⟩
    exact ⟨rfl, ha⟩
  · rintro ⟨hrefresh, ha⟩
    exact ⟨c.addr, ha, hrefresh ▸ rfl⟩

theorem Exact.refresh (h : w.Exact) (addrs : List SocketAddr) :
    (w.next (.refresh addrs)).Exact where
  few := h.few
  addrs := addrs_replace
  sublist := List.Sublist.refl _
  kept _ hc _ := hc
  made c hc := Or.inl (List.mem_append.mpr (h.made c hc))
  numbered := by
    rintro c (hc | hc)
    · exact Nat.lt_succ_of_lt (h.numbered c (List.mem_append.mp hc))
    · rw [(mem_replace.mp hc).1]
      exact Nat.lt_succ_self _
  apart := by
    intro c hold hnew
    have hlt := h.numbered c (List.mem_append.mp hold)
    rw [(mem_replace.mp hnew).1] at hlt
    exact Nat.lt_irrefl _ hlt
  since := by
    -- no failure can have been recorded before against a candidate that is new
    intro c hnew hfailed
    have hlt := h.numbered c (h.made c hfailed)
    rw [(mem_replace.mp hnew).1] at hlt
    exact absurd hlt (Nat.lt_irrefl _)

theorem Exact.pick (h : w.Exact) (d : Draws) : (w.next (.pick d)).Exact := by
  obtain ⟨out, hout⟩ := sifted_pickFrom d 0 w.pool
  have hfailed : (w.pool.pickHealthy d).pool.failed = w.pool.failed := hout.failed
  constructor
  · intro c
    show (w.pool.pickHealthy d).pool.failed.count c < _
    rw [hfailed]
    exact h.few c
  · exact h.addrs
  · exact hout.sublist.trans h.sublist
  · intro c hc hgood
    have hgood : c ∉ w.pool.failed := hfailed ▸ hgood
    exact h.few.mem_of_sifted hout (h.kept c hc hgood) hgood
  · intro c hc
    exact h.made c (hfailed ▸ hc)
  · intro c hc
    exact Nat.lt_of_lt_of_le (h.numbered c hc) hout.nextId_le
  · exact h.apart
  · intro c hc hbad
    exact h.since c hc (hfailed ▸ hbad)

theorem Exact.fail (h : w.Exact) (hmade : c ∈ w.former ∨ c ∈ w.created)
    (hfew : w.pool.failed.count c + 1 < Nat.pow 2 32) : (w.next (.fail c)).Exact where
  few := by
    intro c'
    show (c :: w.pool.failed).count c' < _
    by_cases heq : c' = c
    · rw [heq, List.count_cons_self]
      exact hfew
    · rw [List.count_cons_of_ne (Ne.symm heq)]
      exact h.few c'
  addrs := h.addrs
  sublist := h.sublist
  kept c' hc' hgood := h.kept c' hc' fun hbad => hgood (List.mem_cons_of_mem _ hbad)
  made := by
    intro c' hc'
    rcases List.mem_cons.mp hc' with rfl | hc'
    · exact hmade
    · exact h.made c' hc'
  numbered := h.numbered
  apart := h.apart
  since := by
    intro c' hc' hbad
    rcases List.mem_cons.mp hbad with rfl | hbad
    · exact List.mem_cons_self
    · exact List.mem_cons_of_mem _ (h.since c' hc' hbad)

/-- **One step keeps a pool exact.** -/
theorem Exact.next (h : w.Exact) (hallowed : w.Allows e) : (w.next e).Exact := by
  cases hallowed with
  | refresh addrs => exact h.refresh addrs
  | pick d => exact h.pick d
  | fail hmade hfew => exact h.fail hmade hfew

theorem Exact.after (h : w.Exact) (hrun : w.Run events) : (w.after events).Exact := by
  induction events generalizing w with
  | nil => exact h
  | cons e rest ih => exact ih (h.next hrun.1) hrun.2

/-! ### What a run records -/

theorem mem_failed_next : c ∈ (w.next e).pool.failed
    ↔ c ∈ w.pool.failed ∨ e = .fail c := by
  cases e with
  | refresh addrs => exact ⟨Or.inl, fun hc => hc.resolve_right nofun⟩
  | pick d =>
    have hfailed : (w.pool.pickHealthy d).pool.failed = w.pool.failed := pickFrom_failed
    show c ∈ (w.pool.pickHealthy d).pool.failed ↔ _
    rw [hfailed]
    exact ⟨Or.inl, fun hc => hc.resolve_right nofun⟩
  | fail c' =>
    show c ∈ c' :: w.pool.failed ↔ _
    rw [List.mem_cons, Event.fail.injEq, eq_comm, or_comm]

/-- A pool knows the failures of the run. -/
theorem mem_failed_after :
    c ∈ (w.after events).pool.failed ↔ c ∈ w.pool.failed ∨ .fail c ∈ events := by
  induction events generalizing w with
  | nil => simp [after]
  | cons e rest ih =>
    rw [after_cons, ih, mem_failed_next, List.mem_cons, eq_comm (a := e), or_assoc]

/-- **A pool is exact over whole runs.**  Its addresses ascend strictly and are some
of the last refresh.  Who draws gets a candidate that this refresh has created, that
is still listed, and against which no failure was recorded in the run; or nothing,
exactly if failures were recorded against all that it has created.  It has created one
candidate for each of its addresses, and none that was there before; an address is
missing only if a failure was recorded after it against its own candidate, so none
against an earlier one takes it out. -/
theorem run_exact {events : List Event} (hrun : Run {} events) :
    let w := after {} events
    (w.pool.current.addrs.Pairwise SocketAddr.Before ∧ w.pool.current.addrs ⊆ w.asked)
    ∧ (∀ d c, (w.pool.pickHealthy d).candidate = some c →
      c ∈ w.created ∧ c ∈ (w.pool.pickHealthy d).pool.current.candidates ∧ .fail c ∉ events)
    ∧ (∀ d, (w.pool.pickHealthy d).candidate = none ↔ ∀ c ∈ w.created, .fail c ∈ events)
    ∧ (w.created.map Candidate.addr = SocketAddr.listing w.asked ∧ ∀ c ∈ w.former, c ∉ w.created)
    ∧ ∀ a ∈ w.asked, a ∉ w.pool.current.addrs → ∃ c ∈ w.created, c.addr = a ∧ c ∈ w.since := by
  intro w
  have h : w.Exact := exact_start.after hrun
  have hrecorded : ∀ c, c ∈ w.pool.failed ↔ .fail c ∈ events := by
    intro c
    rw [mem_failed_after]
    exact or_iff_right List.not_mem_nil
  have hlisted : w.pool.current.addrs.Sublist (SocketAddr.listing w.asked) :=
    h.addrs ▸ h.sublist.map Candidate.addr
  refine ⟨⟨(SocketAddr.ascending_listing _).sublist hlisted, ?_⟩, ?_, ?_, ⟨h.addrs, h.apart⟩, ?_⟩
  · intro a ha
    exact SocketAddr.mem_listing.mp (hlisted.subset ha)
  · intro d c hpick
    obtain ⟨hc, hgood⟩ := pickFrom_eq_some h.few hpick
    obtain ⟨out, hout⟩ := sifted_pickFrom d 0 w.pool
    exact ⟨h.sublist.subset (hout.sublist.subset hc), hc, fun hbad =>
      hgood ((hrecorded c).mpr hbad)⟩
  · intro d
    rw [pickHealthy, pickFrom_eq_none_iff h.few]
    simp only [← hrecorded]
    constructor
    · intro hall c hc
      by_contra hgood
      exact hgood (hall c (h.kept c hc hgood))
    · intro hall c hc
      exact hall c (h.sublist.subset hc)
  · intro a ha hmissing
    obtain ⟨c, hc, rfl⟩ : ∃ c ∈ w.created, c.addr = a := by
      rw [← List.mem_map, h.addrs]
      exact SocketAddr.mem_listing.mpr ha
    refine ⟨c, hc, rfl, h.since c hc ?_⟩
    by_contra hgood
    exact hmissing (List.mem_map_of_mem (h.kept c hc hgood))

/-- An address that only the first refresh lists. -/
def passing : SocketAddr := ⟨.v4 (.zero 4), 2, 0⟩

/-- An address that both refreshes list. -/
def lasting : SocketAddr := ⟨.v4 (.zero 4), 1, 0⟩

/-- A candidate fails before its address is listed again and once more after it. -/
def belated : List Event :=
  [.refresh [passing, lasting, passing], .fail ⟨1, lasting⟩, .refresh [lasting],
    .fail ⟨1, lasting⟩, .fail ⟨1, passing⟩, .pick fun _ => 0]

/-- Failures that come late do not harm the new candidate of the address. -/
theorem run_exact_belated : Run {} belated
    ∧ ∀ d, ((after {} belated).pool.pickHealthy d).candidate = some ⟨2, lasting⟩ := by
  have hfirst : ∀ a ∈ [passing, lasting, passing],
      ⟨1, a⟩ ∈ (replace {} [passing, lasting, passing]).current.candidates :=
    fun a ha => mem_replace.mpr ⟨rfl, ha⟩
  have hlasting := hfirst lasting (by simp)
  have hpassing := hfirst passing (by simp)
  have hrun : Run {} belated := by
    refine ⟨.refresh _, .fail (Or.inr hlasting) ?_, .refresh _,
      .fail (Or.inl (List.mem_append_right _ hlasting)) ?_,
      .fail (Or.inl (List.mem_append_right _ hpassing)) ?_, .pick _, trivial⟩
    all_goals decide
  have hcreated : ∀ c, c ∈ (after {} belated).created ↔ c.refresh = 2 ∧ c.addr ∈ [lasting] :=
    fun c => mem_replace
  refine ⟨hrun, fun d => ?_⟩
  obtain ⟨-, hsome, hnone, -⟩ := run_exact hrun
  rcases hpick : ((after {} belated).pool.pickHealthy d).candidate with _ | ⟨number, addr⟩
  · have hfailed := (hnone d).mp hpick ⟨2, lasting⟩ ((hcreated _).mpr ⟨rfl, by simp⟩)
    simp [belated] at hfailed
  · obtain ⟨hnumber, haddr⟩ := (hcreated _).mp (hsome d _ hpick).1
    rw [show number = 2 from hnumber, show addr = lasting from List.mem_singleton.mp haddr]

end History

end Rendezvous.Pool
