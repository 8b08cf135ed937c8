/-
Rendezvous/Proofs/Traffic.lean

Members and calls.

A cluster in use has its members, the calls that clients make, and letters and
replies on their way.  Clients have nothing of their own but the list of peers,
which is the same for all, so it does not matter who makes a call; any number of
calls may be under way.

A letter is served at most once.  While its call waits for the reply

    reach       it reaches a member, and the reply sets out
    receive     the reply comes back
    lose        the reply is lost
    giveUp      the call does not wait any longer

and after that, in any order or never

    arrive      a letter that was given up reaches a member after all

A member that cannot be reached is one at which no letter arrives.  A call that
gets no reply may get a refusal from something in between.

All that is ever served is noted, with the reply (`Traffic.served`), and so the
writes that each member has carried out (`writesAt`).
-/
import Mathlib.Logic.Function.Basic
import Rendezvous.Proofs.Member

namespace Rendezvous

open Engine Http

/-! ### Letters on their way -/

/-- A letter of a call, and where it goes. -/
structure Parcel where
  call : Nat
  addr : SocketAddr
  letter : Letter

/-- Whether a letter is the order of a call. -/
def Parcel.isOrderOf (i : Nat) (x : Parcel) : Bool :=
  match x.letter with
  | .query => false
  | .order _ => x.call = i

/-- A letter that a member has served, and its reply. -/
structure Service extends Parcel where
  peer : Peer
  reply : Reply

/-- The write that was carried out for a letter. -/
def Service.write? (s : Service) : Option Kv.Request :=
  match s.letter with
  | .order (.write bytes) =>
    if s.reply.isSuccess then (Kv.Request.decode bytes).toOption else none
  | .order (.read _) | .query => none

/-- The writes that a member has carried out, each with the call that it was
for. -/
def writesAt (p : Peer) (l : List Service) : List (Nat × Kv.Request) :=
  l.filterMap fun s => if s.peer = p then s.write?.map fun r => (s.call, r) else none

/-- A call, and the reply that is on its way back to it. -/
structure Errand where
  call : Call
  reply : Option Reply := none

/-! ### What can happen -/

/-- A cluster in use. -/
structure Traffic where
  members : Peer → ClusterMember
  errands : List Errand := []
  /-- Letters for whose reply no call waits any more. -/
  adrift : List Parcel := []
  served : List Service := []

namespace Traffic

inductive Event where
  | call (o : Order)
  | reach (i : Nat) (p : Peer)
  | receive (i : Nat)
  | lose (i : Nat) (refusal : Option Reply)
  | giveUp (i : Nat) (refusal : Option Reply)
  | arrive (k : Nat) (p : Peer)

/-- The reply of a member to a letter. -/
def replyOf (t : Traffic) (p : Peer) (l : Letter) : Reply := ((t.members p).serve l.request).1

/-- A letter reaches a member. -/
def serve (t : Traffic) (p : Peer) (x : Parcel) : Traffic :=
  { t with
    members := Function.update t.members p ((t.members p).serve x.letter.request).2
    served := t.served ++ [⟨x, p, t.replyOf p x.letter⟩] }

/-- A call is at another stage. -/
def put (t : Traffic) (i : Nat) (e : Errand) : Traffic := { t with errands := t.errands.set i e }

/-- A letter is given up. -/
def letGo (t : Traffic) (x : Parcel) : Traffic := { t with adrift := t.adrift ++ [x] }

/-- A letter is adrift no more. -/
def pickUp (t : Traffic) (k : Nat) : Traffic := { t with adrift := t.adrift.eraseIdx k }

/-- Whether a call may take something for a refusal. -/
def isRefusal (refusal : Option Reply) : Bool := refusal.all fun r => !r.isSuccess

/-- The call with a number, and the letter that is on its way. -/
def waiting? (t : Traffic) (i : Nat) : Option (Call × Parcel) :=
  match t.errands[i]? with
  | some ⟨c, none⟩ => c.pending?.map fun e => (c, ⟨i, e.1, e.2⟩)
  | _ => none

/-- The call with a number, and the reply that is on its way back. -/
def answered? (t : Traffic) (i : Nat) : Option (Call × Reply) :=
  match t.errands[i]? with
  | some ⟨c, some r⟩ => some (c, r)
  | _ => none

/-- Whether a letter can reach a member. -/
def leadsTo (peers : List Peer) (x : Parcel) (p : Peer) : Bool :=
  p ∈ peers ∧ p.clientAddr = x.addr

/-- One event; one that cannot happen changes nothing. -/
def step (peers : List Peer) (t : Traffic) : Event → Traffic
  | .call o => { t with errands := t.errands ++ [⟨Call.begin peers o, none⟩] }
  | .reach i p =>
    match t.waiting? i with
    | some (c, x) =>
      if leadsTo peers x p then (t.serve p x).put i ⟨c, some (t.replyOf p x.letter)⟩ else t
    | none => t
  | .receive i =>
    match t.answered? i with
    | some (c, r) => t.put i ⟨c.next peers (some r), none⟩
    | none => t
  | .lose i refusal =>
    match t.answered? i with
    | some (c, _) => if isRefusal refusal then t.put i ⟨c.next peers refusal, none⟩ else t
    | none => t
  | .giveUp i refusal =>
    match t.waiting? i with
    | some (c, x) =>
      if isRefusal refusal then (t.letGo x).put i ⟨c.next peers refusal, none⟩ else t
    | none => t
  | .arrive k p =>
    match t.adrift[k]? with
    | some x => if leadsTo peers x p then (t.pickUp k).serve p x else t
    | none => t

/-- One event after the other, from a cluster that has not been used. -/
def run (peers : List Peer) (members : Peer → ClusterMember) (events : List Event) : Traffic :=
  events.foldl (step peers) { members }

/-! ### What an event does -/

/-- The things that can become of a cluster by one event. -/
inductive Move (peers : List Peer) (t : Traffic) : Traffic → Prop
  | idle : Move peers t t
  | call (o) : Move peers t { t with errands := t.errands ++ [⟨Call.begin peers o, none⟩] }
  | reach {i p c addr l} (herrand : t.errands[i]? = some ⟨c, none⟩)
      (hpending : c.pending? = some (addr, l)) (hmem : p ∈ peers) (haddr : p.clientAddr = addr) :
      Move peers t ((t.serve p ⟨i, addr, l⟩).put i ⟨c, some (t.replyOf p l)⟩)
  | receive {i c r} (herrand : t.errands[i]? = some ⟨c, some r⟩) :
      Move peers t (t.put i ⟨c.next peers (some r), none⟩)
  | lose {i c r refusal} (herrand : t.errands[i]? = some ⟨c, some r⟩)
      (hrefusal : isRefusal refusal) : Move peers t (t.put i ⟨c.next peers refusal, none⟩)
  | giveUp {i c addr l refusal} (herrand : t.errands[i]? = some ⟨c, none⟩)
      (hpending : c.pending? = some (addr, l)) (hrefusal : isRefusal refusal) :
      Move peers t ((t.letGo ⟨i, addr, l⟩).put i ⟨c.next peers refusal, none⟩)
  | arrive {k p x} (hparcel : t.adrift[k]? = some x) (hmem : p ∈ peers)
      (haddr : p.clientAddr = x.addr) : Move peers t ((t.pickUp k).serve p x)

theorem waiting?_eq_some {t : Traffic} {i : Nat} {c : Call} {x : Parcel}
    (h : t.waiting? i = some (c, x)) :
    ∃ addr l, x = ⟨i, addr, l⟩ ∧ t.errands[i]? = some ⟨c, none⟩
      ∧ c.pending? = some (addr, l) := by
  rw [waiting?] at h
  split at h
  · rename_i c' herrand
    obtain ⟨⟨addr, l⟩, hpending, h⟩ := Option.map_eq_some_iff.mp h
    cases h
    exact ⟨addr, l, rfl, herrand, hpending⟩
  · cases h

theorem answered?_eq_some {t : Traffic} {i : Nat} {c : Call} {r : Reply}
    (h : t.answered? i = some (c, r)) : t.errands[i]? = some ⟨c, some r⟩ := by
  rw [answered?] at h
  split at h
  · rename_i c' r' herrand
    cases h
    exact herrand
  · cases h

theorem leadsTo_iff {peers : List Peer} {x : Parcel} {p : Peer} :
    leadsTo peers x p ↔ p ∈ peers ∧ p.clientAddr = x.addr :=
  decide_eq_true_iff

/-- Whatever happens is one of these things. -/
theorem move_step (peers : List Peer) (t : Traffic) (e : Event) :
    Move peers t (t.step peers e) := by
  cases e with
  | call o => exact Move.call o
  | reach i p =>
    rw [step]
    rcases hwait : t.waiting? i with _ | ⟨c, x⟩
    · exact Move.idle
    · obtain ⟨addr, l, rfl, herrand, hpending⟩ := waiting?_eq_some hwait
      dsimp only
      split
      · rename_i hreach
        obtain ⟨hmem, haddr⟩ := leadsTo_iff.mp hreach
        exact Move.reach herrand hpending hmem haddr
      · exact Move.idle
  | receive i =>
    rw [step]
    rcases hback : t.answered? i with _ | ⟨c, r⟩
    · exact Move.idle
    · exact Move.receive (answered?_eq_some hback)
  | lose i refusal =>
    rw [step]
    rcases hback : t.answered? i with _ | ⟨c, r⟩
    · exact Move.idle
    · dsimp only
      split
      · rename_i hrefusal
        exact Move.lose (answered?_eq_some hback) hrefusal
      · exact Move.idle
  | giveUp i refusal =>
    rw [step]
    rcases hwait : t.waiting? i with _ | ⟨c, x⟩
    · exact Move.idle
    · obtain ⟨addr, l, rfl, herrand, hpending⟩ := waiting?_eq_some hwait
      dsimp only
      split
      · rename_i hrefusal
        exact Move.giveUp herrand hpending hrefusal
      · exact Move.idle
  | arrive k p =>
    rw [step]
    rcases hparcel : t.adrift[k]? with _ | x
    · exact Move.idle
    · dsimp only
      split
      · rename_i hreach
        obtain ⟨hmem, haddr⟩ := leadsTo_iff.mp hreach
        exact Move.arrive hparcel hmem haddr
      · exact Move.idle

end Traffic

end Rendezvous
