/-
Rendezvous/Proofs/Errand.lean

Calls and members while a cluster is in use.

Three things are always true of members and of the letters of calls.

    Kept    a member has its identifier and its leader from its start, and its
            store from the writes that it has carried out; of those a member
            that does not lead has none
    Sound   a call has sent its order to the peer that leads, the reply on its
            way back to it is one that was served for it, and so was the reply
            with which it ended well
    Sent    orders go to the peer that leads, and of no call twice

What a member does with a letter bears on the first only (`kept_serve`).  What
a reply does, or its absence, bears on the second (`sound_received`,
`sound_refused`), as long as replies name no leader but the one that leads; and
the third counts the letters that have left their calls (`Sent.add`).
-/
import Mathlib.Data.List.Perm.Basic
import Rendezvous.Proofs.Traffic

namespace Rendezvous

open Engine Http ServerNode

variable {peers : List Peer}

/-! ### Calls -/

/-- What a call may come to: an order goes to the peer that leads, and a failure
is one of the engine. -/
inductive Engine.Stage.Proper (peers : List Peer) : Stage → Prop
  | asking (p rest) : Proper peers (.asking p rest)
  | posting {q} (h : Leads peers q) : Proper peers (.posting q.clientAddr)
  | ok (bytes) : Proper peers (.done (.ok bytes))
  | failed (message) : Proper peers (.done (.error (.engine message)))

namespace Engine

theorem Stage.proper_ask (peers rest : List Peer) : (Stage.ask peers rest).Proper peers := by
  cases rest with
  | nil => exact Proper.failed _
  | cons p rest => exact Proper.asking p rest

/-- The peer that leads is found by its identifier. -/
theorem Stage.proper_post (hids : (peers.map Peer.id).Nodup) {q : Peer} (hq : Leads peers q) :
    (Stage.post peers q.id).Proper peers := by
  rw [Stage.post]
  rcases hfind : peers.find? fun p => p.id = q.id with _ | p
  · rw [hfind]
    exact Proper.failed _
  · rw [hfind]
    have hid : p.id = q.id := by simpa using List.find?_some hfind
    obtain rfl : p = q :=
      List.inj_on_of_nodup_map hids (List.mem_of_find?_eq_some hfind) hq.1 hid
    exact Proper.posting hq

theorem Stage.proper_accepted (addr : SocketAddr) (reply : Option Reply) :
    (Stage.done (Cluster.accepted addr reply)).Proper peers := by
  cases reply with
  | none => exact Proper.failed _
  | some r =>
    rw [Cluster.accepted]
    split
    · exact Proper.ok _
    · exact Proper.failed _

/-- A call stays proper if nobody names a leader who does not lead. -/
theorem Call.proper_next (hids : (peers.map Peer.id).Nodup) {c : Call} {reply : Option Reply}
    (h : c.stage.Proper peers)
    (hnamed : ∀ addr id, c.pending? = some (addr, .query) →
      reply.bind Cluster.namedLeader? = some id → ∃ q, Leads peers q ∧ id = q.id) :
    (c.next peers reply).stage.Proper peers := by
  obtain ⟨o, stage⟩ := c
  cases h with
  | asking p rest =>
    show ((Stage.asking p rest).next peers reply).Proper peers
    rcases hid : reply.bind Cluster.namedLeader? with _ | id
    · rw [Stage.next_asking_of_unnamed hid]
      exact Stage.proper_ask peers rest
    · rw [Stage.next_asking_of_named hid]
      obtain ⟨q, hq, rfl⟩ := hnamed p.clientAddr id rfl hid
      exact Stage.proper_post hids hq
  | posting hq => exact Stage.proper_accepted _ reply
  | ok bytes => exact Stage.Proper.ok bytes
  | failed message => exact Stage.Proper.failed message

theorem Cluster.accepted_eq_ok {addr : SocketAddr} {reply : Option Reply} {bytes : List UInt8}
    (h : Cluster.accepted addr reply = .ok bytes) :
    ∃ r, reply = some r ∧ r.isSuccess ∧ r.body = bytes := by
  cases reply with
  | none => cases h
  | some r =>
    rw [Cluster.accepted] at h
    split at h
    · rename_i hsuccess
      exact ⟨r, rfl, hsuccess, Except.ok.inj h⟩
    · cases h

/-- A call ends well with a reply of success to its order only. -/
theorem Call.ok_of_next {c : Call} {reply : Option Reply} {bytes : List UInt8}
    (h : (c.next peers reply).stage = .done (.ok bytes)) :
    c.stage = .done (.ok bytes)
      ∨ ∃ addr r, c.stage = .posting addr ∧ reply = some r ∧ r.isSuccess ∧ r.body = bytes := by
  obtain ⟨o, stage⟩ := c
  cases stage with
  | asking p rest =>
    -- neither the next peer nor the leader has replied yet
    exfalso
    have hstage : (Stage.asking p rest).next peers reply = .done (.ok bytes) := h
    rcases hid : reply.bind Cluster.namedLeader? with _ | id
    · rw [Stage.next_asking_of_unnamed hid] at hstage
      cases rest <;> cases hstage
    · rw [Stage.next_asking_of_named hid, Stage.post] at hstage
      split at hstage <;> cases hstage
  | posting addr =>
    obtain ⟨r, hr, hsuccess, hbody⟩ := Cluster.accepted_eq_ok (Stage.done.inj h)
    exact Or.inr ⟨addr, r, rfl, hr, hsuccess, hbody⟩
  | done result => exact Or.inl h

/-- What is no success names no leader. -/
theorem Cluster.bind_namedLeader?_refusal {refusal : Option Reply}
    (h : Traffic.isRefusal refusal) : refusal.bind Cluster.namedLeader? = none := by
  cases refusal with
  | none => rfl
  | some r =>
    show Cluster.namedLeader? r = none
    refine if_neg fun hstatus => ?_
    have hsuccess : r.isSuccess = false := by simpa [Traffic.isRefusal] using h
    rw [Reply.isSuccess, hstatus] at hsuccess
    cases hsuccess

/-- A call that waits for the reply to an order has sent it to the peer that
leads. -/
theorem Call.posting_of_pending {c : Call} {addr : SocketAddr} {o : Order}
    (h : c.stage.Proper peers) (hpending : c.pending? = some (addr, .order o)) :
    c.order = o ∧ c.stage = .posting addr ∧ ∃ q, Leads peers q ∧ addr = q.clientAddr := by
  obtain ⟨o', stage⟩ := c
  cases h with
  | asking p rest => cases hpending
  | posting hq =>
    cases hpending
    exact ⟨rfl, rfl, _, hq, rfl⟩
  | ok bytes => cases hpending
  | failed message => cases hpending

end Engine

/-! ### Members -/

/-- The store of a member, by what was served. -/
def storeAt (p : Peer) (l : List Service) : Kv.Store :=
  Kv.Store.putAll Table.empty ((writesAt p l).map Prod.snd)

theorem Service.write?_eq_some_iff {s : Service} {r : Kv.Request} :
    s.write? = some r ↔ ∃ bytes, s.letter = .order (.write bytes) ∧ s.reply.isSuccess
      ∧ Kv.Request.decode bytes = .ok r := by
  rw [write?]
  split
  · rename_i bytes hletter
    rw [hletter, Option.ite_none_right_eq_some, Except.toOption_eq_some_iff]
    constructor
    · intro h
      exact ⟨bytes, rfl, h⟩
    · rintro ⟨bytes', hbytes, h⟩
      cases hbytes
      exact h
  -- what is no write carries nothing out
  all_goals
    rename_i hletter
    rw [hletter]
    exact ⟨nofun, nofun⟩

theorem writesAt_concat (p : Peer) (l : List Service) (s : Service) :
    writesAt p (l ++ [s]) = writesAt p l
      ++ (if s.peer = p then s.write?.map fun r => (s.call, r) else none).toList := by
  rw [writesAt, List.filterMap_append, List.filterMap_cons, List.filterMap_nil]
  rcases (if s.peer = p then s.write?.map fun r => (s.call, r) else none) with _ | e <;> rfl

theorem writesAt_concat_of_ne {p : Peer} {s : Service} (l : List Service) (h : s.peer ≠ p) :
    writesAt p (l ++ [s]) = writesAt p l := by
  rw [writesAt_concat, if_neg h]
  exact List.append_nil _

theorem storeAt_concat (l : List Service) (s : Service) :
    storeAt s.peer (l ++ [s]) = (storeAt s.peer l).putAll s.write?.toList := by
  rw [storeAt, writesAt_concat, if_pos rfl, List.map_append, Kv.Store.putAll, List.foldl_append]
  rcases s.write? with _ | r <;> rfl

/-- An error carries nothing out. -/
theorem Service.write?_eq_none {s : Service} {e : Error} (h : s.reply = .error e) :
    s.write? = none := by
  by_contra hsome
  obtain ⟨r, hr⟩ := Option.ne_none_iff_exists'.mp hsome
  obtain ⟨-, -, hsuccess, -⟩ := write?_eq_some_iff.mp hr
  rw [h, Reply.isSuccess_error] at hsuccess
  cases hsuccess

/-- Serving a letter does what is noted for it, and only a leader writes. -/
theorem ClusterMember.serve_write? (m : ClusterMember) (p : Peer) (x : Parcel) (s : Service)
    (hs : s = ⟨x, p, (m.serve x.letter.request).1⟩) :
    (m.serve x.letter.request).2 = { m with store := m.store.putAll (s.write?.toList) }
      ∧ (s.write? ≠ none → m.id = m.leader) := by
  have hnothing : s.write? = none → (m.serve x.letter.request).2 = m →
      (m.serve x.letter.request).2 = { m with store := m.store.putAll (s.write?.toList) }
        ∧ (s.write? ≠ none → m.id = m.leader) := by
    intro hnone hserve
    rw [hnone, hserve]
    exact ⟨rfl, absurd rfl⟩
  obtain ⟨i, addr, l⟩ := x
  cases l with
  | query =>
    refine hnothing ?_ ?_
    · rw [hs]
      rfl
    · exact congrArg Prod.snd (serve_query m)
  | order o =>
    cases o with
    | write bytes =>
      rcases serve_write m bytes with ⟨r, hleads, hdecode, hserve⟩ | ⟨e, hserve⟩
      · have hwrite : s.write? = some r := by
          refine Service.write?_eq_some_iff.mpr ⟨bytes, ?_, ?_, hdecode⟩
          · rw [hs]
          · rw [hs, hserve]
            rfl
        rw [hserve, hwrite]
        exact ⟨rfl, fun _ => hleads⟩
      · refine hnothing (Service.write?_eq_none (e := e) ?_) ?_
        · rw [hs, hserve]
        · rw [hserve]
    | read bytes =>
      refine hnothing ?_ ?_
      · rw [hs]
        rfl
      · rcases serve_read m bytes with ⟨r, hdecode, hserve⟩ | ⟨e, hserve⟩
        · rw [hserve]
        · rw [hserve]

namespace Traffic

variable {t t' : Traffic} {i : Nat} {x : Parcel}

/-- Members are what they were made by what was served. -/
structure Kept (peers : List Peer) (t : Traffic) : Prop where
  member : ∀ p ∈ peers,
    t.members p = { memberOf peers p with store := storeAt p t.served }
  refused : ∀ p ∈ peers, ¬ Leads peers p → writesAt p t.served = []
  delivered : ∀ s ∈ t.served, s.peer ∈ peers ∧ s.peer.clientAddr = s.addr
  named : ∀ s ∈ t.served, s.letter = .query →
    ∃ q, Leads peers q ∧ Cluster.namedLeader? s.reply = some q.id

theorem Kept.of_eq (h : t.Kept peers) (hmembers : t'.members = t.members)
    (hserved : t'.served = t.served) : t'.Kept peers := by
  constructor
  · rw [hmembers, hserved]
    exact h.member
  · rw [hserved]
    exact h.refused
  · rw [hserved]
    exact h.delivered
  · rw [hserved]
    exact h.named

theorem kept_serve (hsorted : peers.Pairwise fun p q => p.id.le q.id)
    (hids : (peers.map Peer.id).Nodup) (h : t.Kept peers) {p : Peer} (hp : p ∈ peers)
    (haddr : p.clientAddr = x.addr) : (t.serve p x).Kept peers := by
  obtain ⟨s, hs⟩ : ∃ s : Service, s = ⟨x, p, t.replyOf p x.letter⟩ := ⟨_, rfl⟩
  have hserved : (t.serve p x).served = t.served ++ [s] := by rw [hs]; rfl
  have hpeer : s.peer = p := by rw [hs]
  obtain ⟨hmember, hleads⟩ := (t.members p).serve_write? p x s hs
  have hself := h.member p hp
  constructor
  · intro q hq
    rw [hserved]
    by_cases hqp : q = p
    · subst hqp
      have hstore := storeAt_concat t.served s
      rw [hpeer] at hstore
      show Function.update t.members q ((t.members q).serve x.letter.request).2 q = _
      rw [Function.update_self, hmember, hself, hstore]
    · have hother : storeAt q (t.served ++ [s]) = storeAt q t.served := by
        rw [storeAt, writesAt_concat_of_ne _ fun heq => hqp (heq.symm.trans hpeer), storeAt]
      show Function.update t.members p _ q = _
      rw [Function.update_of_ne hqp, h.member q hq, hother]
  · intro q hq hfollows
    rw [hserved]
    by_cases hqp : q = p
    · -- a follower writes nothing
      subst hqp
      have hnone : s.write? = none := by
        by_contra hwrite
        have hid := hleads hwrite
        rw [hself] at hid
        exact hfollows ((leads_iff hsorted hids hp).mpr hid)
      rw [writesAt_concat, if_pos hpeer, hnone, h.refused q hq hfollows]
      rfl
    · rw [writesAt_concat_of_ne _ fun heq => hqp (heq.symm.trans hpeer)]
      exact h.refused q hq hfollows
  · intro s' hs'
    rw [hserved] at hs'
    rcases List.mem_append.mp hs' with hold | hnew
    · exact h.delivered s' hold
    · rw [List.mem_singleton.mp hnew, hs]
      exact ⟨hp, haddr⟩
  · intro s' hs' hquery
    rw [hserved] at hs'
    rcases List.mem_append.mp hs' with hold | hnew
    · exact h.named s' hold hquery
    · rw [List.mem_singleton.mp hnew, hs] at hquery ⊢
      obtain ⟨q, hq, hid⟩ := leads_leaderOf hsorted hp
      refine ⟨q, hq, ?_⟩
      have hletter : x.letter = .query := hquery
      show Cluster.namedLeader? ((t.members p).serve x.letter.request).1 = some q.id
      rw [hletter, ClusterMember.namedLeader?_serve_query, hself]
      exact congrArg some hid

end Traffic

/-! ### Errands -/

/-- What is true of a call, with what was served for it. -/
structure Errand.Sound (peers : List Peer) (served : List Service) (i : Nat) (e : Errand) :
    Prop where
  stage : e.call.stage.Proper peers
  reply : ∀ r, e.reply = some r → ∃ s ∈ served, s.call = i
    ∧ e.call.pending? = some (s.addr, s.letter) ∧ s.reply = r
  ok : ∀ bytes, e.call.stage = .done (.ok bytes) → ∃ s ∈ served, s.call = i
    ∧ s.letter = .order e.call.order ∧ s.reply.isSuccess ∧ s.reply.body = bytes

namespace Errand

variable {served served' : List Service} {i : Nat} {c : Call}

theorem Sound.mono {e : Errand} (h : e.Sound peers served i) (hsub : served ⊆ served') :
    e.Sound peers served' i where
  stage := h.stage
  reply := by
    intro r hr
    obtain ⟨s, hs, hrest⟩ := h.reply r hr
    exact ⟨s, hsub hs, hrest⟩
  ok := by
    intro bytes hok
    obtain ⟨s, hs, hrest⟩ := h.ok bytes hok
    exact ⟨s, hsub hs, hrest⟩

theorem sound_begin (o : Order) : (⟨Call.begin peers o, none⟩ : Errand).Sound peers served i where
  stage := Stage.proper_ask peers peers
  reply := nofun
  ok := by
    intro bytes hok
    have hstage : Stage.ask peers peers = .done (.ok bytes) := hok
    cases peers <;> cases hstage

/-- A call whose letter is served stays sound. -/
theorem sound_reached {s : Service} (h : (⟨c, none⟩ : Errand).Sound peers served i)
    (hcall : s.call = i) (hpending : c.pending? = some (s.addr, s.letter)) :
    (⟨c, some s.reply⟩ : Errand).Sound peers (served ++ [s]) i where
  stage := h.stage
  reply := by
    rintro r hr
    exact ⟨s, List.mem_append_right _ (List.mem_singleton_self _), hcall, hpending,
      Option.some.inj hr⟩
  ok := (h.mono (List.subset_append_left ..)).ok

/-- A call that is refused, or hears nothing, stays sound. -/
theorem sound_refused (hids : (peers.map Peer.id).Nodup) {reply refusal : Option Reply}
    (h : (⟨c, reply⟩ : Errand).Sound peers served i) (hrefusal : Traffic.isRefusal refusal) :
    (⟨c.next peers refusal, none⟩ : Errand).Sound peers served i where
  stage := by
    refine Call.proper_next hids h.stage fun addr id _ hnamed => ?_
    rw [Cluster.bind_namedLeader?_refusal hrefusal] at hnamed
    cases hnamed
  reply := nofun
  ok := by
    intro bytes hok
    rcases Call.ok_of_next hok with hdone | ⟨addr, r, -, rfl, hsuccess, -⟩
    · exact h.ok bytes hdone
    · -- no refusal is a success
      have hno : r.isSuccess = false := by simpa [Traffic.isRefusal] using hrefusal
      rw [hno] at hsuccess
      cases hsuccess

/-- A call that gets its reply stays sound. -/
theorem sound_received (hids : (peers.map Peer.id).Nodup) {r : Reply}
    (h : (⟨c, some r⟩ : Errand).Sound peers served i)
    (hnamed : ∀ s ∈ served, s.letter = .query →
      ∃ q, Leads peers q ∧ Cluster.namedLeader? s.reply = some q.id) :
    (⟨c.next peers (some r), none⟩ : Errand).Sound peers served i := by
  obtain ⟨s, hs, hcall, hpending, hreply⟩ := h.reply r rfl
  constructor
  · refine Call.proper_next hids h.stage fun addr id hquery hid => ?_
    -- the reply to a question is one that was served
    rw [hpending] at hquery
    obtain ⟨-, hletter⟩ := Prod.mk.inj (Option.some.inj hquery)
    obtain ⟨q, hq, hqid⟩ := hnamed s hs hletter
    rw [hreply] at hqid
    exact ⟨q, hq, Option.some.inj (hid.symm.trans hqid)⟩
  · exact nofun
  · intro bytes hok
    rcases Call.ok_of_next hok with hdone | ⟨addr, r', hposting, hr, hsuccess, hbody⟩
    · exact h.ok bytes hdone
    · obtain rfl := Option.some.inj hr
      -- what it waited for was the reply to its order
      have hletter : s.letter = .order c.order := by
        rw [Call.pending?, hposting] at hpending
        exact (Prod.mk.inj (Option.some.inj hpending)).2.symm
      rw [← hreply] at hsuccess hbody
      exact ⟨s, hs, hcall, hletter, hsuccess, hbody⟩

end Errand

/-! ### Orders -/

/-- How many orders a call has let members serve or has given up. -/
def Errand.spent (e : Errand) : Nat :=
  match e.call.stage with
  | .asking .. => 0
  | .posting _ => if e.reply.isSome then 1 else 0
  | .done _ => 1

namespace Traffic

variable {t t' : Traffic} {i : Nat} {x : Parcel} {e e' : Errand}

/-- The letters that no call waits for any more, or only for their replies. -/
def parcels (t : Traffic) : List Parcel := t.adrift ++ t.served.map Service.toParcel

def spent (t : Traffic) (i : Nat) : Nat := ((t.errands[i]?).map Errand.spent).getD 0

/-- Letters are those of calls that were made; orders go to the peer that leads,
and of no call twice. -/
structure Sent (peers : List Peer) (t : Traffic) : Prop where
  issued : ∀ x ∈ t.parcels, x.call < t.errands.length
  addressed : ∀ x ∈ t.parcels, ∀ o, x.letter = .order o →
    ∃ q, Leads peers q ∧ x.addr = q.clientAddr
  once : ∀ i, t.parcels.countP (Parcel.isOrderOf i) ≤ t.spent i

theorem spent_of_set (h : t.errands[i]? = some e) (h' : t'.errands = t.errands.set i e')
    (j : Nat) : t'.spent j = if i = j then e'.spent else t.spent j := by
  have hlt : i < t.errands.length := (List.getElem?_eq_some_iff.mp h).1
  rw [spent, h', List.getElem?_set, if_pos hlt]
  split <;> rfl

/-- A letter that is served or given up leaves its call. -/
theorem parcels_serve (t : Traffic) (p : Peer) (x : Parcel) :
    (t.serve p x).parcels.Perm (x :: t.parcels) := by
  show (t.adrift ++ (t.served ++ [_]).map Service.toParcel).Perm _
  rw [List.map_append, ← List.append_assoc]
  exact List.perm_append_singleton x t.parcels

theorem parcels_letGo (t : Traffic) (x : Parcel) : (t.letGo x).parcels.Perm (x :: t.parcels) := by
  show (t.adrift ++ [x] ++ _).Perm _
  rw [List.append_assoc]
  exact List.perm_middle

/-- A letter that arrives after all was there before. -/
theorem parcels_arrive {k : Nat} (h : t.adrift[k]? = some x) (p : Peer) :
    ((t.pickUp k).serve p x).parcels.Perm t.parcels := by
  obtain ⟨hk, rfl⟩ := List.getElem?_eq_some_iff.mp h
  refine (parcels_serve (t.pickUp k) p _).trans ?_
  exact (List.getElem_cons_eraseIdx_perm hk).append_right _

/-- A letter is sent or served, and its call goes on. -/
theorem Sent.add (h : t.Sent peers) (herrand : t.errands[x.call]? = some e)
    (herrand' : t'.errands = t.errands.set x.call e') (hparcels : t'.parcels.Perm (x :: t.parcels))
    (haddr : ∀ o, x.letter = .order o → ∃ q, Leads peers q ∧ x.addr = q.clientAddr)
    (hspent : e.spent + (if x.isOrderOf x.call then 1 else 0) ≤ e'.spent) : t'.Sent peers where
  issued := by
    intro y hy
    rw [herrand', List.length_set]
    rcases List.mem_cons.mp (hparcels.mem_iff.mp hy) with rfl | hold
    · exact (List.getElem?_eq_some_iff.mp herrand).1
    · exact h.issued y hold
  addressed := by
    intro y hy
    rcases List.mem_cons.mp (hparcels.mem_iff.mp hy) with rfl | hold
    · exact haddr
    · exact h.addressed y hold
  once := by
    intro j
    have hold := h.once j
    rw [hparcels.countP_eq, List.countP_cons, spent_of_set herrand herrand']
    by_cases hj : x.call = j
    · -- the call of the letter has spent enough to make up for it
      subst hj
      rw [spent, herrand] at hold
      rw [if_pos rfl]
      exact Nat.le_trans (Nat.add_le_add_right hold _) hspent
    · have hother : x.isOrderOf j = false := by
        rw [Parcel.isOrderOf]
        split
        · rfl
        · exact decide_eq_false hj
      rw [if_neg hj, hother]
      exact hold

/-- A call goes on, and no letter is sent or served. -/
theorem Sent.same (h : t.Sent peers) (herrand : t.errands[i]? = some e)
    (herrand' : t'.errands = t.errands.set i e') (hparcels : t'.parcels = t.parcels)
    (hspent : e.spent ≤ e'.spent) : t'.Sent peers where
  issued := by
    rw [hparcels, herrand', List.length_set]
    exact h.issued
  addressed := by
    rw [hparcels]
    exact h.addressed
  once := by
    intro j
    have hold := h.once j
    rw [hparcels, spent_of_set herrand herrand']
    by_cases hj : i = j
    · subst hj
      rw [spent, herrand] at hold
      rw [if_pos rfl]
      exact Nat.le_trans hold hspent
    · rw [if_neg hj]
      exact hold

/-- A letter that reaches a member is spent if it is an order. -/
theorem spent_reach {c : Call} {r : Reply} (h : c.pending? = some (x.addr, x.letter)) :
    (⟨c, none⟩ : Errand).spent + (if x.isOrderOf x.call then 1 else 0)
      ≤ (⟨c, some r⟩ : Errand).spent := by
  obtain ⟨o, stage⟩ := c
  cases stage with
  | asking p rest =>
    have hletter : x.letter = .query := (Prod.mk.inj (Option.some.inj h)).2.symm
    rw [Parcel.isOrderOf, hletter]
    exact Nat.le_refl _
  | posting addr =>
    show 0 + _ ≤ 1
    split <;> decide
  | done result => cases h

theorem spent_next (c : Call) (reply back : Option Reply) :
    (⟨c, back⟩ : Errand).spent ≤ (⟨c.next peers reply, none⟩ : Errand).spent := by
  obtain ⟨o, stage⟩ := c
  cases stage with
  | asking p rest => exact Nat.zero_le _
  | posting addr =>
    show (if back.isSome then 1 else 0) ≤ 1
    split <;> decide
  | done result => exact Nat.le_refl _

end Traffic

end Rendezvous
