/-
Rendezvous/Proofs/Passing.lean

What a proxy passes on.

A proxy decodes the body of a write and encodes it anew.  Since requests and
replies are read back from their bytes, the engine is handed bytes that decode to
what the body says, whatever else stands in the body (`messages_survive`): fields
left out, fields that are not known, text after the value.
-/
import Rendezvous.Proofs.FrontEnd

namespace Rendezvous.FrontEnd

open Http

variable {f : FrontEnd} {r : Http.Request} {q : Kv.Request} {segment : String}

/-- A request to write that a proxy takes: it leads to the endpoint for writes,
and its body is read as a key-value request. -/
def TakesWrite (r : Http.Request) (q : Kv.Request) : Prop :=
  (∃ segment, resolve routes r = .endpoint .put segment) ∧ r.json Kv.Request.decoder = .ok q

/-- Only PUT leads to the endpoint for writes. -/
theorem method_of_resolve_put (h : resolve routes r = .endpoint .put segment) :
    r.method = Request.put := by
  rw [resolve] at h
  split at h
  · rename_i t segment' hfind
    split at h
    · rename_i haccepts
      obtain ⟨t', ht', hmatch⟩ := List.exists_of_findSome?_eq_some hfind
      obtain ⟨_, -, heq⟩ := Option.map_eq_some_iff.mp hmatch
      cases heq
      simp only [routes, List.mem_cons, List.not_mem_nil, or_false] at ht'
      rcases ht' with rfl | rfl | rfl | rfl | rfl | rfl
      · cases h
      · cases h
      · cases h
      · cases h
      · rcases Bool.or_eq_true_iff.mp haccepts with hput | hhead
        · exact of_decide_eq_true hput
        · -- this route takes no HEAD
          exact absurd (Bool.and_eq_true_iff.mp hhead).2 (by decide)
      · cases h
    · cases h
  · cases h

/-- No other requests are planned as writes. -/
theorem plan?_eq_write_iff : f.plan? r = some (.write q) ↔ TakesWrite r q := by
  constructor
  · intro h
    rw [plan?] at h
    split at h
    · rename_i e segment hresolve
      have hplan := Option.some.inj h
      cases e with
      | root => cases hplan
      | health => cases hplan
      | about => cases hplan
      | config => cases hplan
      | put =>
        rw [plan] at hplan
        split at hplan
        · rename_i hjson
          cases hplan
          exact ⟨⟨segment, hresolve⟩, hjson⟩
        · cases hplan
      | get =>
        rw [plan] at hplan
        split at hplan <;> cases hplan
    · cases h
  · rintro ⟨⟨segment, hresolve⟩, hjson⟩
    rw [plan?, hresolve]
    dsimp only
    rw [plan, hjson]

/-- A body that is a key-value request and nothing else is taken as this one. -/
theorem eq_of_takesWrite_of_decode {q' : Kv.Request} (h : TakesWrite r q)
    (hdecode : Kv.Request.decode r.body = .ok q') : q' = q := by
  obtain ⟨-, hjson⟩ := h
  obtain ⟨a, hroot, hclosed⟩ :=
    Except.bind_eq_ok_iff.mp (Except.mapError_eq_ok_iff.mp hdecode)
  rw [Request.json] at hjson
  split at hjson
  · have hbody := Except.mapError_eq_ok_iff.mp hjson
    rw [hroot] at hbody
    obtain rfl := Except.ok.inj hbody
    rw [Json.ifClosed] at hclosed
    split at hclosed
    · exact (Except.ok.inj hclosed).symm
    · cases hclosed
  · cases hjson

/-- **Key-value messages survive the wire.**  Requests and replies are read back
from their bytes.  Hence a proxy hands its engine, for a write that it takes,
bytes that decode to the request of the body, and answers by what the engine
makes of these. -/
theorem messages_survive :
    (∀ q : Kv.Request, Kv.Request.decode q.encode = .ok q)
    ∧ (∀ k : Kv.Response, Kv.Response.decode k.encode = .ok k)
    ∧ ∀ (r : Http.Request) (q : Kv.Request), TakesWrite r q →
      (∀ q', Kv.Request.decode r.body = .ok q' → q' = q)
      ∧ ∃ bytes, Kv.Request.decode bytes = .ok q
        ∧ ∀ {σ : Type} (f : FrontEnd) (gate : Gate) (engine : Engine σ) (s : σ),
          gate.connections ≠ 0 →
          f.serve gate engine r s
            = (if engine.pace.exceeds gate.timeout then timedOut
                else replyOf ((engine.write bytes s).1.map fun _ => .ok []),
              (engine.write bytes s).2) := by
  refine ⟨Kv.Request.decode_encode, Kv.Response.decode_encode, fun r q h => ?_⟩
  refine ⟨fun q' => eq_of_takesWrite_of_decode h, q.encode, Kv.Request.decode_encode q, ?_⟩
  intro σ f gate engine s hgate
  have hmethod : r.method ≠ Request.head := by
    obtain ⟨⟨segment, hresolve⟩, -⟩ := h
    rw [method_of_resolve_put hresolve]
    decide
  rw [serve_of_plan? (plan?_eq_write_iff.mpr h) hmethod, if_neg hgate]
  rfl

/-- A write of which the body leaves out the value and the identifier, has a field
that is not known and goes on behind its end. -/
def looseRequest : Http.Request where
  method := Request.put
  target := Path.kv
  headers := [("Content-Type", "application/json; charset=utf-8")]
  body := Text.octetsOf "\x7b\"key\":\"\\u0000\",\"x\":[]\x7d ."

theorem messages_survive_loose :
    TakesWrite looseRequest ⟨"\x00", [], none⟩ ∧ ({} : Gate).connections ≠ 0
    ∧ ∃ bytes, Kv.Request.decode bytes = .ok ⟨"\x00", [], none⟩
      ∧ serve default {} (Engine.alone default) looseRequest Table.empty
        = (replyOf (((Engine.alone default).write bytes Table.empty).1.map fun _ => .ok []),
          ((Engine.alone default).write bytes Table.empty).2) := by
  have hread : (looseRequest.json Kv.Request.decoder).toOption = some ⟨"\x00", [], none⟩ := by
    decide +kernel
  have htakes : TakesWrite looseRequest ⟨"\x00", [], none⟩ :=
    ⟨⟨"", by decide⟩, Except.toOption_eq_some_iff.mp hread⟩
  obtain ⟨-, bytes, hdecode, hserve⟩ := messages_survive.2.2 looseRequest _ htakes
  have hgate : ({} : Gate).connections ≠ 0 := by decide
  exact ⟨htakes, hgate, bytes, hdecode, hserve default {} (Engine.alone default) Table.empty hgate⟩

end Rendezvous.FrontEnd
