/-
Rendezvous/Proofs/FrontEnd.lean

What a proxy makes of the requests of clients.

A request that leads to an endpoint is turned away, given up or answered by its
plan (`serve_of_plan?`).  The write of a client is planned as it was sent
(`plan?_putRequest`); it was carried out if the client takes the reply for a
success (`put_of_readReply`), and a key that is readable is answered with its
value (`readReply_get`).
-/
import Rendezvous.Proofs.Handle
import Rendezvous.Proofs.KeyPath
import Rendezvous.Proofs.Member

namespace Rendezvous.FrontEnd

open Http

variable {σ : Type} {f : FrontEnd} {gate : Gate} {engine : Engine σ} {r : Http.Request}
  {p : Plan} {s : σ}

/-- A request with a plan is turned away, given up or answered. -/
theorem serve_of_plan? (hplan : f.plan? r = some p) (hmethod : r.method ≠ Request.head) :
    f.serve gate engine r s
      = if gate.connections = 0 then (overloaded, s)
        else (if (paceOf engine p).exceeds gate.timeout then timedOut else (run engine s p).1,
          (run engine s p).2) := by
  have hwhole : ∀ q : Reply, q.toMethod r.method = q := fun q => if_neg hmethod
  rw [plan?] at hplan
  split at hplan
  · rename_i e segment hresolve
    obtain rfl := Option.some.inj hplan
    rw [serve, serveWith, lane, hresolve]
    dsimp only
    rw [List.count_nil]
    by_cases hgate : gate.connections = 0
    · rw [if_pos (Nat.le_of_eq hgate), if_pos hgate, hwhole]
    · rw [if_neg (by omega), if_neg hgate, hwhole]
  · cases hplan

/-- **A write is planned as it was sent.** -/
theorem plan?_putRequest (f : FrontEnd) (q : Kv.Request) :
    f.plan? (Smart.putRequest q) = some (.write q) := by
  have hroute : resolve routes (Smart.putRequest q) = .endpoint .put "" := by
    rw [Smart.putRequest, Request.withJson, resolve_of_target]
    decide
  have hjson : (Smart.putRequest q).json Kv.Request.decoder = .ok q :=
    Request.json_withJson q.tree_isPlain q.decoder_tree ..
  rw [plan?, hroute]
  dsimp only
  rw [plan, hjson]

/-! ### Replies -/

variable {view : σ → Kv.Store} {key : String} {value : List UInt8} {q : Kv.Request}
  {addr : SocketAddr} {k : Kv.Response}

/-- Whether a proxy has its engine answer at all. -/
def Answers (gate : Gate) (engine : Engine σ) : Prop :=
  gate.connections ≠ 0 ∧ engine.pace.exceeds gate.timeout = false

theorem paceOf_write : paceOf engine (.write q) = engine.pace := rfl

theorem paceOf_read : paceOf engine (.read key) = engine.pace := rfl

theorem readReply_of_not_isSuccess {r : Reply} (h : r.isSuccess = false) :
    Smart.readReply addr (some r) ≠ .ok k := by
  rw [Smart.readReply]
  split
  · nofun
  · rw [if_neg (Bool.eq_false_iff.mp h)]
    nofun

/-- **A write that is reported as a success** was carried out. -/
theorem put_of_readReply (hserves : engine.Serves view)
    (h : Smart.readReply addr (some (f.serve gate engine (Smart.putRequest q) s).1) = .ok k) :
    Answers gate engine ∧ view (f.serve gate engine (Smart.putRequest q) s).2 = (view s).put q := by
  have hmethod : Request.put ≠ Request.head := by decide
  rw [serve_of_plan? (plan?_putRequest f q) hmethod] at h ⊢
  by_cases hgate : gate.connections = 0
  · rw [if_pos hgate] at h
    exact absurd h (readReply_of_not_isSuccess rfl)
  rw [if_neg hgate] at h ⊢
  by_cases hpace : engine.pace.exceeds gate.timeout
  · rw [paceOf_write, if_pos hpace] at h
    exact absurd h (readReply_of_not_isSuccess rfl)
  · rw [paceOf_write, if_neg hpace] at h
    refine ⟨⟨hgate, Bool.eq_false_iff.mpr hpace⟩, ?_⟩
    show view (engine.write q.encode s).2 = _
    rcases hserves.write q.encode s with ⟨r, hdecode, hview⟩ | ⟨hfailed, -⟩
    · rw [Kv.Request.decode_encode] at hdecode
      cases hdecode
      exact hview
    · rcases hresult : (engine.write q.encode s).1 with e | _
      · have hrun : (run engine s (.write q)).1 = .error e := by
          show replyOf ((engine.write q.encode s).1.map _) = _
          rw [hresult]
          rfl
        rw [hrun] at h
        exact absurd h (readReply_of_not_isSuccess (Reply.isSuccess_error e))
      · exact absurd hresult hfailed

/-- **A readable key is answered with its value.** -/
theorem readReply_get (hserves : engine.Serves view) (hanswers : Answers gate engine)
    (hreadable : Readable key) (hvalue : (view s).get? key = some value) :
    Smart.readReply addr (some (f.serve gate engine (Smart.getRequest key) s).1)
      = .ok (.ok value) := by
  have hmethod : Request.get ≠ Request.head := by decide
  obtain ⟨hgate, hpace⟩ := hanswers
  have hreply : (view s).reply (Kv.Request.read key) = .ok value := by
    have hget : (view s).get? (Kv.Request.read key).key = some value := hvalue
    simp only [Kv.Store.reply, hget]
  have hrun : (run engine s (.read key)).1 = .json 200 (Kv.Response.ok value).tree := by
    show replyOf ((engine.read (Kv.Request.read key).encode s).1.bind Kv.Response.decode) = _
    rw [hserves.read _ s _ (Kv.Request.decode_encode _), hreply]
    show replyOf (Kv.Response.decode (Kv.Response.ok value).encode) = _
    rw [Kv.Response.decode_encode]
    rfl
  rw [serve_of_plan? (plan?_getRequest_iff.mpr hreadable) hmethod, if_neg hgate, paceOf_read,
    if_neg (Bool.eq_false_iff.mp hpace), hrun]
  show (Kv.Response.decode (Kv.Response.ok value).encode).mapError _ = _
  rw [Kv.Response.decode_encode]
  rfl

/-- A write that is carried out is reported as a success. -/
theorem readReply_put (hanswers : Answers gate engine)
    (hwrite : (engine.write q.encode s).1 = .ok ()) :
    Smart.readReply addr (some (f.serve gate engine (Smart.putRequest q) s).1) = .ok (.ok []) := by
  have hmethod : Request.put ≠ Request.head := by decide
  obtain ⟨hgate, hpace⟩ := hanswers
  have hrun : (run engine s (.write q)).1 = .json 200 (Kv.Response.ok []).tree := by
    show replyOf ((engine.write q.encode s).1.map _) = _
    rw [hwrite]
    rfl
  rw [serve_of_plan? (plan?_putRequest f q) hmethod, if_neg hgate, paceOf_write,
    if_neg (Bool.eq_false_iff.mp hpace), hrun]
  show (Kv.Response.decode (Kv.Response.ok []).encode).mapError _ = _
  rw [Kv.Response.decode_encode]
  rfl

end Rendezvous.FrontEnd
