/-
Rendezvous/Proofs/Attempts.lean

Attempts at a request.

A candidate is found while one is left that has never failed, and no other is
(`Pool.pickFrom_isSome`, `Pool.healthy_of_pickFrom`).  A request that succeeded has succeeded at its last
attempt (`exists_of_attempts_eq_ok`), and if every attempt succeeds the first
does (`execute_eq_ok`).
-/
import Rendezvous.Client.Balancer
import Rendezvous.Proofs.Pruning

namespace Rendezvous

namespace Pool

variable {d : Draws} {used : Nat} {p : Pool} {c : Candidate}

/-- A candidate is found while one is listed that has never failed. -/
theorem pickFrom_isSome (h : c ∈ p.current.candidates) (hhealthy : p.isHealthy c) :
    ∃ c', (pickFrom d used p).candidate = some c' := by
  obtain ⟨made, hmade, -⟩ := exists_drawing d used p
  exact Option.isSome_iff_exists.mp (hmade.isSome_iff.mpr ⟨c, h, isHealthy_iff_failures.mp hhealthy⟩)

/-- A candidate that is drawn is listed and has never failed. -/
theorem healthy_of_pickFrom (h : (pickFrom d used p).candidate = some c) :
    c ∈ p.current.candidates ∧ p.isHealthy c := by
  obtain ⟨made, hmade, -⟩ := exists_drawing d used p
  obtain ⟨out, hout, -⟩ := hmade.sifted
  rcases hmade.ends with ⟨c', hc', hsome, hgood⟩ | ⟨hnone, -⟩
  · cases hsome.symm.trans h
    exact ⟨hout.sublist.subset hc', isHealthy_iff_failures.mpr hgood⟩
  · rw [hnone] at h
    cases h

/-- Nothing is drawn exactly if no listed candidate is without failures. -/
theorem candidate_eq_none_iff : (pickFrom d used p).candidate = none
    ↔ ∀ c ∈ p.current.candidates, ¬ p.isHealthy c := by
  obtain ⟨made, hmade, -⟩ := exists_drawing d used p
  rw [← Option.not_isSome_iff_eq_none, hmade.isSome_iff]
  simp only [isHealthy_iff_failures, not_exists, not_and]

/-- Drawing records no failure. -/
theorem pickFrom_failed : (pickFrom d used p).pool.failed = p.failed := by
  obtain ⟨out, hout⟩ := sifted_pickFrom d used p
  exact hout.failed

end Pool

namespace Balancer

variable {σ α : Type} {d : Draws} {op : Attempt σ α} {total maxAttempts : UInt32} {p : Pool}
  {s : σ} {a : α}

/-- At least one attempt is allowed. -/
theorem toNat_allowed (maxAttempts : UInt32) :
    (allowed maxAttempts).toNat = max 1 maxAttempts.toNat := by
  rw [allowed]
  split
  · rename_i hzero
    rw [hzero]
    rfl
  · rename_i hne
    have hpos : maxAttempts.toNat ≠ 0 := fun hzero => hne (UInt32.toNat_inj.mp hzero)
    omega

theorem allowed_pos : 0 < (allowed maxAttempts).toNat := by
  rw [toNat_allowed]
  exact Nat.le_max_left ..

/-- Without a candidate there is no attempt. -/
theorem attempts_of_none {left used : Nat} {last : Option (Candidate × Error)}
    (h : (Pool.pickFrom d used p).candidate.or (last.map Prod.fst) = none) :
    attempts d op total (left + 1) used last p s
      = ⟨.error .poolExhausted, (Pool.pickFrom d used p).pool, s,
        (Pool.pickFrom d used p).draws⟩ := by
  simp only [attempts, h]

section One

variable {left used : Nat} {last : Option (Candidate × Error)} {c : Candidate} {p' : Pool} {s' : σ}
  (h : (Pool.pickFrom d used p).candidate.or (last.map Prod.fst) = some c)
include h

/-- An attempt that succeeds, with the candidate that was drawn or else the last
one. -/
theorem attempts_of_ok (hop : op c.addr ((Pool.pickFrom d used p).pool, s) = (.ok a, (p', s'))) :
    attempts d op total (left + 1) used last p s
      = ⟨.ok a, p', s', (Pool.pickFrom d used p).draws⟩ := by
  simp only [attempts, h, hop]

/-- After an attempt that fails, those that are left are made. -/
theorem attempts_of_error {e : Error}
    (hop : op c.addr ((Pool.pickFrom d used p).pool, s) = (.error e, (p', s'))) :
    attempts d op total (left + 1) used last p s
      = attempts d op total left (Pool.pickFrom d used p).draws (some (c, e))
        (p'.recordFailure c) s' := by
  simp only [attempts, h, hop]

end One

/-- **A request that succeeded** has succeeded at an attempt, and nothing was
done after it. -/
theorem exists_of_attempts_eq_ok {left used : Nat} {last : Option (Candidate × Error)}
    (h : (attempts d op total left used last p s).result = .ok a) :
    ∃ addr p' s', (op addr (p', s')).1 = .ok a
      ∧ (op addr (p', s')).2.2 = (attempts d op total left used last p s).state := by
  induction left generalizing used last p s with
  | zero => cases last <;> cases h
  | succ left ih =>
    rcases hcandidate : (Pool.pickFrom d used p).candidate.or (last.map Prod.fst) with _ | c
    · rw [attempts_of_none hcandidate] at h
      cases h
    · rcases hop : op c.addr ((Pool.pickFrom d used p).pool, s) with ⟨e | b, p', s'⟩
      · rw [attempts_of_error hcandidate hop] at h ⊢
        exact ih h
      · rw [attempts_of_ok hcandidate hop] at h ⊢
        cases h
        exact ⟨c.addr, _, s, by rw [hop], by rw [hop]⟩

/-- A request succeeds at once if every attempt does and a candidate is left. -/
theorem execute_eq_ok {used : Nat} {c : Candidate} (hc : c ∈ p.current.candidates)
    (hhealthy : p.isHealthy c) (hop : ∀ addr p, (op addr (p, s)).1 = .ok a) :
    (execute d op maxAttempts used p s).result = .ok a := by
  obtain ⟨left, hleft⟩ : ∃ left, (allowed maxAttempts).toNat = left + 1 :=
    Nat.exists_eq_add_one.mpr allowed_pos
  obtain ⟨c', hc'⟩ : ∃ c', (Pool.pickFrom d used p).candidate = some c' :=
    Pool.pickFrom_isSome hc hhealthy
  have hcandidate : (Pool.pickFrom d used p).candidate.or none = some c' := by
    rw [hc', Option.some_or]
  have hfirst := hop c'.addr (Pool.pickFrom d used p).pool
  rcases hresult : op c'.addr ((Pool.pickFrom d used p).pool, s) with ⟨b, p', s'⟩
  rw [hresult] at hfirst
  obtain rfl : b = .ok a := hfirst
  rw [execute, hleft, attempts_of_ok hcandidate hresult]

end Balancer

end Rendezvous
