/-
Rendezvous/Proofs/Failover.lean

Failing over.

A request that nobody disturbs draws from a pool that changes only by its own
failures.  A candidate that has failed in it is never drawn again, for the counter
that it shows is no longer zero and cannot come back to zero within one request.  So
random draws act as draws without replacement: every healthy candidate has its turn
before any has a second one (`InTurn`), whatever the random numbers are.

The invariant is `Underway`: after some calls the healthy candidates that are left
are those of the beginning without those called (`Underway.left_iff`).  One draw and
one failure keep it (`Underway.draw`, `Underway.fail`), so a whole request ends in one
of two ways (`Settled`), and what there is to say of failing over is read off the
order of its calls (`execute_fails_over`).
-/
import Mathlib.Data.List.Dedup
import Rendezvous.Proofs.Retries

namespace Rendezvous

/-! ### Taking turns -/

section Turns

variable {γ δ : Type} {l turns : List γ} {a : γ}

/-- Members of a list that have had turns, in their order: nobody has a second turn
before everybody has had a first one. -/
inductive InTurn (l : List γ) : List γ → Prop
  | nil : InTurn l []
  | snoc {turns : List γ} {a : γ} (h : InTurn l turns) (ha : a ∈ l)
      (hfair : a ∈ turns → l ⊆ turns) : InTurn l (turns ++ [a])

namespace InTurn

theorem subset (h : InTurn l turns) : turns ⊆ l := by
  induction h with
  | nil => exact List.nil_subset l
  | snoc h ha hfair ih =>
    exact List.append_subset.mpr ⟨ih, List.cons_subset.mpr ⟨ha, List.nil_subset l⟩⟩

/-- Before a second turn everybody has had a first one. -/
theorem repeated (h : InTurn l turns) {before after : List γ}
    (heq : turns = before ++ a :: after) (ha : a ∈ before) : l ⊆ before := by
  induction h generalizing after with
  | nil => simp at heq
  | @snoc turns b h hb hfair ih =>
    rcases List.eq_nil_or_concat after with rfl | ⟨rest, c, rfl⟩
    · -- the second turn is the last one
      obtain ⟨rfl, hlast⟩ := List.append_inj' heq rfl
      cases hlast
      exact hfair ha
    · have hsplit : turns ++ [b] = (before ++ a :: rest) ++ [c] := by simpa using heq
      exact ih (List.append_inj' hsplit rfl).1

theorem nodup_or_subset (h : InTurn l turns) : turns.Nodup ∨ l ⊆ turns := by
  induction h with
  | nil => exact Or.inl List.nodup_nil
  | @snoc turns a h ha hfair ih =>
    rcases ih with hnodup | hall
    · by_cases hmem : a ∈ turns
      · exact Or.inr (List.Subset.trans (hfair hmem) (List.subset_append_left ..))
      · refine Or.inl (List.nodup_append.mpr ⟨hnodup, List.nodup_singleton a, ?_⟩)
        intro b hb c hc
        rw [List.mem_singleton.mp hc]
        exact ne_of_mem_of_not_mem hb hmem
    · exact Or.inr (List.Subset.trans hall (List.subset_append_left ..))

/-- **As many have had a turn as there are turns,** until everybody has. -/
theorem length_dedup [DecidableEq γ] (h : InTurn l turns) (hl : l.Nodup) :
    turns.dedup.length = min turns.length l.length := by
  rcases h.nodup_or_subset with hnodup | hall
  · rw [hnodup.dedup, Nat.min_eq_left (hnodup.length_le_of_subset h.subset)]
  · -- everybody has had a turn, and nobody else
    have hle : turns.dedup.length ≤ l.length :=
      turns.nodup_dedup.length_le_of_subset
        (List.Subset.trans (List.dedup_subset turns) h.subset)
    have hge : l.length ≤ turns.dedup.length :=
      hl.length_le_of_subset (List.Subset.trans hall (List.subset_dedup turns))
    have hshort : turns.dedup.length ≤ turns.length := (List.dedup_sublist turns).length_le
    omega

/-- Turns of members are turns of their names, if no two have the same. -/
theorem map {f : γ → δ} (hf : ∀ a ∈ l, ∀ b ∈ l, f a = f b → a = b) (h : InTurn l turns) :
    InTurn (l.map f) (turns.map f) := by
  induction h with
  | nil => exact .nil
  | @snoc turns a h ha hfair ih =>
    rw [List.map_append]
    refine ih.snoc (List.mem_map_of_mem ha) fun hmem => List.map_subset f (hfair ?_)
    obtain ⟨b, hb, heq⟩ := List.mem_map.mp hmem
    rwa [← hf b (h.subset hb) a ha heq]

end InTurn

end Turns

/-! ### What drawing keeps -/

namespace Pool

variable {d : Draws} {used : Nat} {p : Pool} {c : Candidate}

/-- The listed candidates that show no failures. -/
def healthy (p : Pool) : List Candidate := p.current.candidates.filter p.isHealthy

theorem mem_healthy : c ∈ p.healthy ↔ c ∈ p.current.candidates ∧ p.isHealthy c :=
  List.mem_filter

theorem isHealthy_iff_count : p.isHealthy c ↔ p.failed.count c % Nat.pow 2 32 = 0 := by
  rw [isHealthy, decide_eq_true_eq, failures]

/-- Drawing takes candidates out and leaves the others in their order. -/
theorem pickFrom_sublist :
    (pickFrom d used p).pool.current.candidates.Sublist p.current.candidates := by
  obtain ⟨out, hout⟩ := sifted_pickFrom d used p
  exact hout.sublist

/-- Drawing keeps every candidate that shows no failures. -/
theorem mem_pickFrom_of_healthy (h : c ∈ p.healthy) :
    c ∈ (pickFrom d used p).pool.current.candidates := by
  obtain ⟨out, hout⟩ := sifted_pickFrom d used p
  obtain ⟨hc, hhealthy⟩ := mem_healthy.mp h
  exact hout.kept hc (isHealthy_iff_failures.mp hhealthy)

/-- No event lists an address twice. -/
theorem nodup_addrs_act (h : p.current.addrs.Nodup) (e : Event) :
    (p.act e).current.addrs.Nodup := by
  cases e with
  | refresh addrs =>
    rw [act, addrs_replace]
    exact SocketAddr.nodup_listing addrs
  | pick d => exact h.sublist (pickFrom_sublist.map Candidate.addr)
  | fail c => exact h

/-- **A pool lists no address twice,** whatever is done with it. -/
theorem nodup_addrs_acts (acts : List Event) :
    (acts.foldl act ({} : Pool)).current.addrs.Nodup := by
  induction acts using List.reverseRecOn with
  | nil => exact List.nodup_nil
  | append_singleton acts e ih =>
    rw [List.foldl_append]
    exact nodup_addrs_act ih e

end Pool

namespace Balancer

variable {σ α : Type}

/-- Whether an attempt succeeds depends on its address only, and nobody else uses the
pool meanwhile. -/
structure Steady (op : Attempt σ α) (serves : SocketAddr → Bool) : Prop where
  outcome : ∀ addr p s, (op addr (p, s)).1.isOk = serves addr
  alone : ∀ addr p s, (op addr (p, s)).2.1 = p

/-! ### A request under way -/

/-- A pool in the middle of a request that has called some candidates of the pool it
began with, each of them in vain. -/
structure Underway (p₀ p : Pool) (called : List Candidate) : Prop where
  counted : ∀ c, p.failed.count c = p₀.failed.count c + called.count c
  listed : p.current.candidates ⊆ p₀.current.candidates
  turns : InTurn p₀.healthy called
  kept : ∀ c ∈ p₀.healthy, c ∉ called → c ∈ p.current.candidates

namespace Underway

variable {p₀ p : Pool} {called : List Candidate} {c : Candidate} {d : Draws} {used : Nat}

theorem start (p : Pool) : Underway p p [] where
  counted _ := rfl
  listed := List.Subset.refl _
  turns := .nil
  kept _ hc _ := (Pool.mem_healthy.mp hc).1

/-- Who has been called shows failures, and all others show what they did. -/
theorem isHealthy_iff (h : Underway p₀ p called) (hfew : called.length < Nat.pow 2 32) :
    p.isHealthy c ↔ p₀.isHealthy c ∧ c ∉ called := by
  have hcount : called.count c < Nat.pow 2 32 := Nat.lt_of_le_of_lt List.count_le_length hfew
  by_cases hmem : c ∈ called
  · -- it was healthy, so its counter shows the failures of this request alone
    have hold : p₀.isHealthy c := (Pool.mem_healthy.mp (h.turns.subset hmem)).2
    have hpos : 0 < called.count c := List.count_pos_iff.mpr hmem
    rw [Pool.isHealthy_iff_count] at hold
    rw [Pool.isHealthy_iff_count, h.counted c, Nat.add_mod, hold, Nat.zero_add, Nat.mod_mod,
      Nat.mod_eq_of_lt hcount]
    exact ⟨fun hzero => absurd hzero (Nat.ne_of_gt hpos), fun hboth => absurd hmem hboth.2⟩
  · have hzero : called.count c = 0 := List.count_eq_zero.mpr hmem
    rw [Pool.isHealthy_iff_count, Pool.isHealthy_iff_count, h.counted c, hzero, Nat.add_zero]
    exact (and_iff_left hmem).symm

/-- **Who is left to be drawn is who was there and has not been called.** -/
theorem left_iff (h : Underway p₀ p called) (hfew : called.length < Nat.pow 2 32) :
    c ∈ p.healthy ↔ c ∈ p₀.healthy ∧ c ∉ called := by
  rw [Pool.mem_healthy, h.isHealthy_iff hfew, Pool.mem_healthy]
  constructor
  · rintro ⟨hc, hhealthy, hnew⟩
    exact ⟨⟨h.listed hc, hhealthy⟩, hnew⟩
  · rintro ⟨⟨hc, hhealthy⟩, hnew⟩
    exact ⟨h.kept c (Pool.mem_healthy.mpr ⟨hc, hhealthy⟩) hnew, hhealthy, hnew⟩

/-- Drawing is no failure and takes out nobody who is left. -/
theorem draw (h : Underway p₀ p called) (hfew : called.length < Nat.pow 2 32) (d : Draws)
    (used : Nat) : Underway p₀ (Pool.pickFrom d used p).pool called where
  counted c := by
    rw [Pool.pickFrom_failed]
    exact h.counted c
  listed := List.Subset.trans Pool.pickFrom_sublist.subset h.listed
  turns := h.turns
  kept c hc hnew := Pool.mem_pickFrom_of_healthy ((h.left_iff hfew).mpr ⟨hc, hnew⟩)

/-- Whoever is drawn has the next turn, and so has the last one called when nobody is
left to be drawn. -/
theorem next (h : Underway p₀ p called) (hfew : called.length < Nat.pow 2 32)
    (hdrawn : (Pool.pickFrom d used p).candidate.or called.getLast? = some c) :
    InTurn p₀.healthy (called ++ [c]) := by
  rcases hpick : (Pool.pickFrom d used p).candidate with _ | c'
  · rw [hpick, Option.none_or] at hdrawn
    have hmem : c ∈ called := List.mem_of_getLast? hdrawn
    refine h.turns.snoc (h.turns.subset hmem) fun _ c' hc' => ?_
    by_contra hnew
    -- somebody is left, so a draw would have found somebody
    obtain ⟨hlisted, hhealthy⟩ := Pool.mem_healthy.mp ((h.left_iff hfew).mpr ⟨hc', hnew⟩)
    exact Pool.candidate_eq_none_iff.mp hpick c' hlisted hhealthy
  · rw [hpick, Option.some_or, Option.some_inj] at hdrawn
    subst hdrawn
    have hleft := (h.left_iff hfew).mp (Pool.mem_healthy.mpr (Pool.healthy_of_pickFrom hpick))
    exact h.turns.snoc hleft.1 fun hmem => absurd hmem hleft.2

/-- Nobody can be called exactly if nobody was healthy. -/
theorem healthy_eq_nil (h : Underway p₀ p called) (hfew : called.length < Nat.pow 2 32)
    (hdrawn : (Pool.pickFrom d used p).candidate.or called.getLast? = none) :
    p₀.healthy = [] := by
  obtain ⟨hpick, hlast⟩ := Option.or_eq_none_iff.mp hdrawn
  obtain rfl := List.getLast?_eq_none_iff.mp hlast
  refine List.eq_nil_iff_forall_not_mem.mpr fun c hc => ?_
  obtain ⟨hlisted, hhealthy⟩ := Pool.mem_healthy.mp ((h.left_iff hfew).mpr ⟨hc, List.not_mem_nil⟩)
  exact Pool.candidate_eq_none_iff.mp hpick c hlisted hhealthy

/-- A failure of the one who was called is recorded. -/
theorem fail (h : Underway p₀ p called) (hturn : InTurn p₀.healthy (called ++ [c])) :
    Underway p₀ (p.recordFailure c) (called ++ [c]) where
  counted c' := by
    rw [Pool.count_recordFailure, h.counted c', List.count_append, List.count_singleton,
      Nat.add_assoc]
    simp only [beq_iff_eq, decide_eq_true_eq]
  listed := h.listed
  turns := hturn
  kept c' hc' hnew := h.kept c' hc' fun hmem => hnew (List.mem_append_left _ hmem)

end Underway

/-! ### The end of a request -/

/-- How a request ends that nobody disturbs, with the candidates it has called: one of
them serves it, or all have failed and there were no more attempts or nobody to call. -/
inductive Settled (p₀ : Pool) (total : UInt32) (serves : SocketAddr → Bool) :
    List Candidate → Except Error α → Pool → Prop
  | served {p : Pool} {fails : List Candidate} {c : Candidate} (a : α)
      (h : Underway p₀ p fails) (hturn : InTurn p₀.healthy (fails ++ [c]))
      (hcount : fails.length < total.toNat) :
      Settled p₀ total serves (fails ++ [c]) (.ok a) p
  | failed {p : Pool} {fails : List Candidate} (e : Error) (h : Underway p₀ p fails)
      (hfails : ∀ c ∈ fails, serves c.addr = false)
      (hcount : fails.length = total.toNat ∨ fails = [] ∧ p₀.healthy = []) :
      Settled p₀ total serves fails (.error e) p

variable {op : Attempt σ α} {serves : SocketAddr → Bool} {p₀ p : Pool} {total : UInt32}
  {d : Draws} {called : List Candidate} {last : Option (Candidate × Error)} {left used : Nat}

/-- **The attempts that are left settle a request.**  The notes are of those called. -/
theorem settled_attempts (hsteady : Steady op serves) (h : Underway p₀ p called)
    (hcount : called.length + left = total.toNat)
    (hfails : ∀ c ∈ called, serves c.addr = false) (hlast : last.map Prod.fst = called.getLast?)
    {notes : List (SocketAddr × Except Error α)}
    (hnotes : notes.map Prod.fst = called.map Candidate.addr) (s : σ) :
    let o := attempts d (noting op) total left used last p (s, notes)
    ∃ all, o.state.2.map Prod.fst = all.map Candidate.addr
      ∧ Settled p₀ total serves all o.result o.pool := by
  induction left generalizing used last p s notes called with
  | zero =>
    refine ⟨called, ?_, ?_⟩
    · rcases last with _ | ⟨c, e⟩ <;> exact hnotes
    · rcases last with _ | ⟨c, e⟩ <;> exact .failed _ h hfails (Or.inl hcount)
  | succ left ih =>
    have hfew : called.length < Nat.pow 2 32 := by
      have := total.toNat_lt
      simp only [Nat.pow_eq]
      omega
    rcases hcandidate : (Pool.pickFrom d used p).candidate.or (last.map Prod.fst) with _ | c
    · -- nobody was healthy, or somebody would have been called before
      have hnone := hlast ▸ hcandidate
      have hempty := h.healthy_eq_nil hfew hnone
      have hcalled : called = [] :=
        List.getLast?_eq_none_iff.mp (Option.or_eq_none_iff.mp hnone).2
      rw [attempts_of_none hcandidate]
      exact ⟨called, hnotes, .failed _ (h.draw hfew d used) hfails (Or.inr ⟨hcalled, hempty⟩)⟩
    · have hturn := h.next hfew (hlast ▸ hcandidate)
      have hdrawn := h.draw hfew d used
      have houtcome := hsteady.outcome c.addr (Pool.pickFrom d used p).pool s
      have halone := hsteady.alone c.addr (Pool.pickFrom d used p).pool s
      rcases hop : op c.addr ((Pool.pickFrom d used p).pool, s) with ⟨r, p', s'⟩
      rw [hop] at houtcome halone
      obtain rfl : p' = (Pool.pickFrom d used p).pool := halone
      have hnoted : noting op c.addr ((Pool.pickFrom d used p).pool, (s, notes))
          = (r, ((Pool.pickFrom d used p).pool, (s', notes ++ [(c.addr, r)]))) := by
        simp only [noting, hop]
      have hmore : (notes ++ [(c.addr, r)]).map Prod.fst
          = (called ++ [c]).map Candidate.addr := by
        simp [hnotes]
      cases r with
      | ok a =>
        rw [attempts_of_ok hcandidate hnoted]
        exact ⟨called ++ [c], hmore, .served a hdrawn hturn (by omega)⟩
      | error e =>
        rw [attempts_of_error hcandidate hnoted]
        refine ih (hdrawn.fail hturn) ?_ ?_ ?_ hmore s'
        · simp only [List.length_append, List.length_singleton]
          omega
        · intro c' hc'
          rcases List.mem_append.mp hc' with hold | hnew
          · exact hfails c' hold
          · rw [List.mem_singleton.mp hnew]
            exact houtcome.symm
        · simp

namespace Settled

variable {all : List Candidate} {r : Except Error α}

theorem turns (h : Settled p₀ total serves all r p) : InTurn p₀.healthy all := by
  cases h with
  | served a h hturn hcount => exact hturn
  | failed e h hfails hcount => exact h.turns

/-- Healthy candidates that were not called are still there. -/
theorem mem_healthy (h : Settled p₀ total serves all r p) {c : Candidate} (hc : c ∈ p₀.healthy)
    (hnew : c ∉ all) : c ∈ p.healthy := by
  cases h with
  | @served p fails c' a h hturn hcount =>
    have hfew : fails.length < Nat.pow 2 32 := Nat.lt_trans hcount total.toNat_lt
    exact (h.left_iff hfew).mpr ⟨hc, fun hmem => hnew (List.mem_append_left _ hmem)⟩
  | @failed p fails e h hfails hcount =>
    have hfew : all.length < Nat.pow 2 32 := by
      rcases hcount with hcount | ⟨rfl, -⟩
      · exact hcount ▸ total.toNat_lt
      · exact Nat.two_pow_pos 32
    exact (h.left_iff hfew).mpr ⟨hc, hnew⟩

/-- A request that failed has made all its attempts, if it could make one. -/
theorem min_length {e : Error} (h : Settled p₀ total serves all (.error e : Except Error α) p) :
    min all.length p₀.healthy.length = min total.toNat p₀.healthy.length := by
  cases h with
  | failed e h hfails hcount =>
    rcases hcount with hcount | ⟨-, hempty⟩
    · rw [hcount]
    · rw [hempty, List.length_nil, Nat.min_zero, Nat.min_zero]

/-- **Failover.**  If somebody serves and fewer fail than there are attempts, the request
is served. -/
theorem isOk (h : Settled p₀ total serves all r p) (hnodup : p₀.healthy.Nodup)
    (hserves : ∃ c ∈ p₀.healthy, serves c.addr)
    (hfew : p₀.healthy.countP (fun c => !serves c.addr) < total.toNat) : ∃ a, r = .ok a := by
  rcases r with e | a
  · exfalso
    have hall : all.dedup.length = min total.toNat p₀.healthy.length :=
      (h.turns.length_dedup hnodup).trans h.min_length
    obtain ⟨c, hc, hgood⟩ := hserves
    -- those called all fail, so there are no more of them than of those that fail
    have hle : all.dedup.length ≤ p₀.healthy.countP fun c => !serves c.addr := by
      rw [List.countP_eq_length_filter]
      refine all.nodup_dedup.length_le_of_subset fun c hc => ?_
      have hmem : c ∈ all := List.mem_dedup.mp hc
      cases h with
      | failed e h hfails hcount =>
        exact List.mem_filter.mpr ⟨h.turns.subset hmem, by simp [hfails c hmem]⟩
    -- and one that serves is not among them
    have hlt : p₀.healthy.countP (fun c => !serves c.addr) < p₀.healthy.length := by
      rw [List.countP_eq_length_filter]
      exact List.length_filter_lt_length_iff_exists.mpr ⟨c, hc, by simp [hgood]⟩
    omega
  · exact ⟨a, rfl⟩

end Settled

/-! ### Failing over -/

/-- **Failing over is guaranteed for every draw.**  No pool lists an address twice.  On
such a pool a request is served if some healthy candidate serves and fewer of them fail
than attempts are allowed.  No address is tried again while a healthy candidate has not
been tried; so a request that failed has tried as many addresses as attempts are allowed,
or all that were healthy.  Healthy candidates that were not tried are left as they were. -/
theorem execute_fails_over (hsteady : Steady op serves) (hp : p.current.addrs.Nodup) (d : Draws)
    (maxAttempts : UInt32) (used : Nat) (s : σ) :
    let o := execute d (noting op) maxAttempts used p (s, [])
    let tried := o.state.2.map Prod.fst
    (∀ acts : List Pool.Event, (acts.foldl Pool.act ({} : Pool)).current.addrs.Nodup)
    ∧ o.forget = execute d op maxAttempts used p s
    ∧ ((∃ c ∈ p.healthy, serves c.addr) →
      p.healthy.countP (fun c => !serves c.addr) < max 1 maxAttempts.toNat →
      ∃ a, o.result = .ok a)
    ∧ (∀ before addr after, tried = before ++ addr :: after → addr ∈ before →
      ∀ c ∈ p.healthy, c.addr ∈ before)
    ∧ (∀ e, o.result = .error e →
      tried.dedup.length = min (max 1 maxAttempts.toNat) p.healthy.length)
    ∧ ∀ c ∈ p.healthy, c.addr ∉ tried → c ∈ o.pool.healthy := by
  intro o tried
  have hnodup : (p.healthy.map Candidate.addr).Nodup := hp.sublist (List.filter_sublist.map _)
  obtain ⟨all, htried, hsettled⟩ : ∃ all, tried = all.map Candidate.addr
      ∧ Settled p (allowed maxAttempts) serves all o.result o.pool :=
    settled_attempts hsteady (Underway.start p) (Nat.zero_add _) nofun rfl rfl s
  -- as no two candidates have one address, addresses are tried in turn as candidates are
  have hturns : InTurn (p.healthy.map Candidate.addr) tried :=
    htried ▸ hsettled.turns.map (List.inj_on_of_nodup_map hnodup)
  rw [← toNat_allowed]
  refine ⟨Pool.nodup_addrs_acts, attempts_noting [], hsettled.isOk hnodup.of_map, ?_, ?_, ?_⟩
  · intro before addr after heq hmem c hc
    exact hturns.repeated heq hmem (List.mem_map_of_mem hc)
  · intro e hfailed
    rw [hturns.length_dedup hnodup, htried, List.length_map, List.length_map]
    exact (hfailed ▸ hsettled).min_length
  · intro c hc hnew
    refine hsettled.mem_healthy hc fun hmem => hnew ?_
    rw [htried]
    exact List.mem_map_of_mem hmem

/-- Three candidates, the first of which has failed before. -/
def trio : Pool where
  current := ⟨1, [⟨1, .atPort 1⟩, ⟨1, .atPort 2⟩, ⟨1, .atPort 3⟩]⟩
  nextId := 2
  failed := [⟨1, .atPort 1⟩]

/-- Attempts that succeed at one address only, and are counted. -/
def knock (addr : SocketAddr) : Attempt Nat SocketAddr := fun addr' (p, n) =>
  (if addr' = addr then .ok addr' else .error .poolExhausted, (p, n + 1))

/-- Of the two that are left the second serves, and two attempts are enough. -/
theorem execute_fails_over_trio :
    Steady (knock (.atPort 3)) (fun addr => addr = .atPort 3) ∧ trio.current.addrs.Nodup
    ∧ ∀ d, ∃ a, (execute d (knock (.atPort 3)) 2 0 trio 0).result = .ok a := by
  have hsteady : Steady (knock (.atPort 3)) fun addr => addr = .atPort 3 := by
    refine ⟨fun addr p s => ?_, fun _ _ _ => rfl⟩
    by_cases h : addr = .atPort 3 <;> simp [knock, h, Except.isOk, Except.toBool]
  have hnodup : trio.current.addrs.Nodup := by decide
  refine ⟨hsteady, hnodup, fun d => ?_⟩
  obtain ⟨-, hforget, hserved, -⟩ := execute_fails_over hsteady hnodup d 2 0 0
  rw [← hforget]
  exact hserved (by decide) (by decide)

end Balancer

end Rendezvous
