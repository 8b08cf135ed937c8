/-
Rendezvous/Proofs/ReadBack.lean

Keys that are read back.

A client writes a key in the body of a request and reads it by a path.  The body
is taken as it is, so a write that succeeded has put its value under its key
(`put_of_send`), where it stays while nobody else writes to the key.  A read
finds it there exactly if the path leads to the key: `readable_iff_reads_back`
joins both.

The handle behind the proxy is any that serves one store.  Between the write and
the read it may carry out any orders, whoever gave them.
-/
import Rendezvous.Proofs.Attempts
import Rendezvous.Proofs.FrontEnd

namespace Rendezvous.FrontEnd

open Http

variable {σ : Type} {f : FrontEnd} {gate : Gate} {engine : Engine σ} {view : σ → Kv.Store}
  {q : Kv.Request} {k : Kv.Response} {s : σ}

/-- A network on which every address leads to one proxy. -/
def everywhere (f : FrontEnd) (gate : Gate) (engine : Engine σ) : Exchange σ := fun _ r s =>
  (some (f.serve gate engine r s).1, (f.serve gate engine r s).2)

/-- A write through a proxy that succeeded has put its value under its key. -/
theorem put_of_send {d : Draws} {maxAttempts : UInt32} {used : Nat} {pool : Pool}
    (hserves : engine.Serves view)
    (h : (Smart.send (f.everywhere gate engine) d maxAttempts (Smart.putRequest q) used pool
      s).result = .ok k) :
    Answers gate engine ∧ (view (Smart.send (f.everywhere gate engine) d maxAttempts
      (Smart.putRequest q) used pool s).state).get? q.key = some q.value := by
  obtain ⟨addr, pool', s', hok, hstate⟩ := Balancer.exists_of_attempts_eq_ok h
  obtain ⟨hanswers, hput⟩ := put_of_readReply hserves hok
  refine ⟨hanswers, ?_⟩
  rw [Smart.send, Balancer.execute, ← hstate]
  show (view (f.serve gate engine (Smart.putRequest q) s').2).get? q.key = _
  rw [hput, Kv.Store.put, Table.get?_insert_self]

/-- **Keys that are read back.**  The path for a key leads to the reading of just
that key exactly if the key is readable.  For such a key, what was written
through a proxy with success is what is read through it, whatever the handle
carries out in between, unless it is a write to the key. -/
theorem readable_iff_reads_back (f : FrontEnd) (gate : Gate) (key : String) :
    (f.plan? (Smart.getRequest key) = some (.read key) ↔ Readable key)
    ∧ (Readable key → ∀ {σ : Type} {engine : Engine σ} {view : σ → Kv.Store},
        engine.Serves view →
        ∀ (value : List UInt8) (draw : Octets 16) (d : Draws) (maxAttempts : UInt32)
          (used : Nat) (pool : Pool) (s : σ) (put : Balancer.Outcome σ Kv.Response)
          (k : Kv.Response),
        Smart.send (f.everywhere gate engine) d maxAttempts
          (Smart.putRequest (.write key value draw)) used pool s = put →
        put.result = .ok k →
        ∀ between : List Engine.Order, (∀ o ∈ between, ¬ o.WritesTo key) →
        ∀ (d' : Draws) (maxAttempts' : UInt32) (used' : Nat) (pool' : Pool),
        (∃ c ∈ pool'.current.candidates, pool'.isHealthy c) →
        (Smart.send (f.everywhere gate engine) d' maxAttempts' (Smart.getRequest key) used' pool'
          (engine.carryAll put.state between)).result = .ok (.ok value)) := by
  refine ⟨plan?_getRequest_iff, ?_⟩
  rintro hreadable σ engine view hserves value draw d maxAttempts used pool s put k rfl hput
    between hbetween d' maxAttempts' used' pool' ⟨c, hc, hgood⟩
  obtain ⟨hanswers, hvalue⟩ := put_of_send hserves hput
  have hthere := (hserves.get?_carryAll hbetween).trans hvalue
  exact Balancer.execute_eq_ok hc hgood fun addr pool =>
    readReply_get hserves hanswers hreadable hthere

/-! #### A key with blanks, letters beyond ASCII and a percent sign -/

theorem readable_coffee : Readable "café 100%" where
  nonempty := by decide
  plain := by simp
  ended := by simp
  ne_dot := by decide
  ne_dots := by decide
  verbatim := Percent.verbatim_of_length (by decide)

/-- A pool with one candidate. -/
def lonePool : Pool := { current := ⟨0, [⟨0, default⟩]⟩ }

/-- The key is read back, after a write to another key. -/
theorem readable_iff_reads_back_coffee :
    ∃ put : Balancer.Outcome Kv.Store Kv.Response,
      Smart.send (everywhere default {} (Engine.alone default)) id 1
        (Smart.putRequest (.write "café 100%" [1] default)) 0 lonePool Table.empty = put
      ∧ put.result = .ok (.ok [])
      ∧ (Smart.send (everywhere default {} (Engine.alone default)) id 1
          (Smart.getRequest "café 100%") 0 lonePool
          ((Engine.alone default).carryAll put.state
            [.write (Kv.Request.encode ⟨"tea", [2], none⟩)])).result = .ok (.ok [1]) := by
  have hanswers : Answers {} (Engine.alone default) := ⟨by decide, by decide⟩
  have hc : (⟨0, default⟩ : Candidate) ∈ lonePool.current.candidates := List.mem_singleton.mpr rfl
  have hwrite := Engine.alone_write_encode default (.write "café 100%" [1] default) Table.empty
  have hput : (Smart.send (everywhere default {} (Engine.alone default)) id 1
      (Smart.putRequest (.write "café 100%" [1] default)) 0 lonePool Table.empty).result
      = .ok (.ok []) :=
    Balancer.execute_eq_ok hc rfl fun _ _ => readReply_put hanswers (by rw [hwrite])
  refine ⟨_, rfl, hput, ?_⟩
  refine (readable_iff_reads_back default {} "café 100%").2 readable_coffee
    (Engine.alone_serves default) [1] default id 1 0 lonePool Table.empty _ _ rfl hput _ ?_
    id 1 0 lonePool ⟨_, hc, rfl⟩
  intro o ho
  obtain rfl := List.mem_singleton.mp ho
  rintro ⟨r, hdecode, hkey⟩
  rw [Kv.Request.decode_encode] at hdecode
  cases hdecode
  exact absurd hkey (by decide)

/-- A key with a slash in it is written, and the request that reads it finds no
route. -/
theorem slash_not_read_back :
    (serve default {} (Engine.alone default) (Smart.putRequest ⟨"a/b", [1], none⟩)
        Table.empty).2.get? "a/b" = some [1]
      ∧ resolve routes (Smart.getRequest "a/b") = .unknown
      ∧ ∀ s, serve default {} (Engine.alone default) (Smart.getRequest "a/b") s
          = (.unknownPath, s) := by
  have hroute : resolve routes (Smart.getRequest "a/b") = .unknown := by decide
  refine ⟨?_, hroute, fun s => ?_⟩
  · have hmethod : Request.put ≠ Request.head := by decide
    rw [serve_of_plan? (plan?_putRequest default _) hmethod]
    show ((Engine.alone default).write _ _).2.get? "a/b" = _
    rw [Engine.alone_write_encode]
    rfl
  · rw [serve, serveWith, lane, hroute]
    rfl

end Rendezvous.FrontEnd
