/-
Rendezvous/Proofs/Resend.lean

Writes that come again.

A write reaches the state machine through the local handle, through the member
that leads, or from a client through a proxy, which sends the same request at
every attempt.  On each way it is carried out if it can be read, whatever its
identifier, so what a run of attempts leaves behind is told by the requests that
were taken (`carryAll_eq`).

A write that was carried out before is thus carried out again when it is sent
again.  This changes nothing exactly if the key still has its value, that is, if
nothing else was written to the key in between (`resent_unchanged_iff`); what
another client has written there in the meantime is overwritten.
-/
import Rendezvous.Proofs.FrontEnd

namespace Rendezvous.Kv

open Engine Store

/-! ### Attempts -/

/-- An attempt to have something written, and the way it takes. -/
inductive Attempt where
  /-- Bytes for the local handle. -/
  | handle (leader : Uuid) (bytes : List UInt8)
  /-- Bytes for the member that leads. -/
  | member (leader : Uuid) (bytes : List UInt8)
  /-- The request of a client, through a proxy in front of the local handle. -/
  | client (proxy : FrontEnd) (gate : FrontEnd.Gate) (leader : Uuid) (r : Request)

namespace Attempt

/-- What an attempt makes of the store. -/
def carry (s : Store) : Attempt → Store
  | handle leader bytes => ((Engine.alone leader).write bytes s).2
  | member leader bytes =>
    (ClusterMember.serve ⟨leader, leader, s⟩ (Letter.order (.write bytes)).request).2.store
  | client proxy gate leader r =>
    (proxy.serve gate (Engine.alone leader) (Smart.putRequest r) s).2

/-- The request that is taken at an attempt: bytes must be readable, and a proxy
must let somebody in. -/
def request? : Attempt → Option Request
  | handle _ bytes => (Request.decode bytes).toOption
  | member _ bytes => (Request.decode bytes).toOption
  | client _ gate _ r => if gate.connections = 0 then none else some r

/-- Make attempts, one after the other. -/
def carryAll (s : Store) (l : List Attempt) : Store := l.foldl carry s

/-- The requests that are taken at some attempts. -/
def requests (l : List Attempt) : List Request := l.filterMap request?

variable {s : Store} {a : Attempt} {r : Request}

/-- **Every way carries out what it takes**, whatever its identifier. -/
theorem carry_eq (s : Store) (a : Attempt) : a.carry s = s.putAll a.request?.toList := by
  cases a with
  | handle leader bytes =>
    rcases alone_write leader bytes s with ⟨r, hdecode, hwrite⟩ | ⟨e, hdecode, hwrite⟩
    · rw [carry, hwrite, request?, hdecode]
      rfl
    · rw [carry, hwrite, request?, hdecode]
      rfl
  | member leader bytes =>
    rw [carry, ClusterMember.serve_write_request, ClusterMember.answer, ClusterMember.apply,
      if_pos rfl, Store.apply, request?]
    cases Request.decode bytes <;> rfl
  | client proxy gate leader r =>
    have hmethod : Http.Request.put ≠ Http.Request.head := by decide
    rw [carry, FrontEnd.serve_of_plan? (FrontEnd.plan?_putRequest proxy r) hmethod, request?]
    split
    · rfl
    · show ((Engine.alone leader).write r.encode s).2 = _
      rw [alone_write_encode]
      rfl

theorem request?_handle (leader : Uuid) (r : Request) :
    (handle leader r.encode).request? = some r := by
  rw [request?, Request.decode_encode]
  rfl

theorem request?_member (leader : Uuid) (r : Request) :
    (member leader r.encode).request? = some r := by
  rw [request?, Request.decode_encode]
  rfl

theorem carryAll_append (s : Store) (l l' : List Attempt) :
    carryAll s (l ++ l') = carryAll (carryAll s l) l' := List.foldl_append

/-- **What a run leaves behind** is told by the requests that were taken. -/
theorem carryAll_eq (s : Store) (l : List Attempt) : carryAll s l = s.putAll (requests l) := by
  induction l generalizing s with
  | nil => rfl
  | cons a l ih =>
    have hcons : carryAll s (a :: l) = carryAll (a.carry s) l := rfl
    have hrequests : requests (a :: l) = a.request?.toList ++ requests l := by
      rw [requests, List.filterMap_cons]
      cases a.request? <;> rfl
    rw [hcons, ih, carry_eq, hrequests, putAll, putAll, putAll, List.foldl_append]

end Attempt

/-! ### Writing once more -/

namespace Store

variable {key : String} {s : Store} {r : Request}

/-- A write changes nothing exactly if its key has its value already. -/
theorem put_eq_self_iff : s.put r = s ↔ s.get? r.key = some r.value := by
  constructor
  · intro h
    rw [← h, put, Table.get?_insert_self]
  · intro h
    refine Table.ext_get? fun key => ?_
    by_cases hkey : key = r.key
    · rw [hkey, put, Table.get?_insert_self, h]
    · rw [put, Table.get?_insert_ne _ _ hkey]

theorem lastValue?_append (l l' : List Request) :
    lastValue? key (l ++ l') = (lastValue? key l').or (lastValue? key l) := by
  rw [lastValue?, List.reverse_append, List.find?_append, Option.map_or]
  rfl

theorem lastValue?_cons_self (l : List Request) :
    lastValue? r.key (r :: l) = (lastValue? r.key l).or (some r.value) := by
  rw [← List.singleton_append, lastValue?_append, lastValue?, lastValue?, List.reverse_singleton,
    List.find?_cons_of_pos (by simp)]
  rfl

end Store

/-- **Writes that come again.**  A request that is taken, whatever its identifier
and whoever took one of that identifier before, is carried out: its key then has
its value.  So it changes nothing exactly if the last write to its key, or the
store before all of them, has put the same value there.  In particular, a request
that was taken before and is sent again changes nothing exactly if no other value
was written to its key in between. -/
theorem resent_unchanged_iff (s : Store) (run : List Attempt) {a : Attempt} {r : Request}
    (ha : a.request? = some r) :
    ((Attempt.carryAll s (run ++ [a])).get? r.key = some r.value)
    ∧ (Attempt.carryAll s (run ++ [a]) = Attempt.carryAll s run
      ↔ (lastValue? r.key (Attempt.requests run)).or (s.get? r.key) = some r.value)
    ∧ ∀ before a' between, run = before ++ a' :: between → a'.request? = some r →
        (Attempt.carryAll s (run ++ [a]) = Attempt.carryAll s run
          ↔ ∀ value, lastValue? r.key (Attempt.requests between) = some value
            → value = r.value) := by
  have hput : Attempt.carryAll s (run ++ [a]) = (Attempt.carryAll s run).put r := by
    rw [Attempt.carryAll_append]
    show a.carry _ = _
    rw [Attempt.carry_eq, ha]
    rfl
  have hsame : Attempt.carryAll s (run ++ [a]) = Attempt.carryAll s run
      ↔ (lastValue? r.key (Attempt.requests run)).or (s.get? r.key) = some r.value := by
    rw [hput, put_eq_self_iff, Attempt.carryAll_eq, get?_putAll]
  refine ⟨?_, hsame, ?_⟩
  · rw [hput, put, Table.get?_insert_self]
  · rintro before a' between rfl ha'
    have hrequests : Attempt.requests (before ++ a' :: between)
        = Attempt.requests before ++ r :: Attempt.requests between := by
      rw [Attempt.requests, List.filterMap_append, List.filterMap_cons, ha']
      rfl
    rw [hsame, hrequests, lastValue?_append, lastValue?_cons_self]
    rcases lastValue? r.key (Attempt.requests between) with _ | value
    · simp
    · simp

/-- A client's write comes again after a write to another key, which keeps it
harmless. -/
theorem resent_unchanged_iff_apart :
    Attempt.carryAll Table.empty [.client default {} default ⟨"k", [1], some "a"⟩,
        .member default (Request.encode ⟨"j", [2], some "b"⟩),
        .client default {} default ⟨"k", [1], some "a"⟩]
      = Attempt.carryAll Table.empty [.client default {} default ⟨"k", [1], some "a"⟩,
        .member default (Request.encode ⟨"j", [2], some "b"⟩)] := by
  have hsame := (resent_unchanged_iff Table.empty [.client default {} default ⟨"k", [1], some "a"⟩,
    .member default (Request.encode ⟨"j", [2], some "b"⟩)]
    (a := .client default {} default ⟨"k", [1], some "a"⟩) rfl).2.2
  refine (hsame [] _ [_] rfl rfl).mpr fun value hvalue => ?_
  simp only [Attempt.requests, List.filterMap_cons, Attempt.request?_member] at hvalue
  cases hvalue

/-- A client writes, another client writes, and the write of the former comes
again: what the other has written is lost. -/
theorem resent_overwrites :
    (Attempt.carryAll Table.empty [.handle default (Request.encode ⟨"k", [1], some "a"⟩),
        .handle default (Request.encode ⟨"k", [2], some "b"⟩)]).get? "k" = some [2]
      ∧ (Attempt.carryAll Table.empty [.handle default (Request.encode ⟨"k", [1], some "a"⟩),
          .handle default (Request.encode ⟨"k", [2], some "b"⟩),
          .handle default (Request.encode ⟨"k", [1], some "a"⟩)]).get? "k" = some [1] := by
  simp only [Attempt.carryAll_eq, Attempt.requests, List.filterMap_cons, List.filterMap_nil,
    Attempt.request?_handle]
  decide

end Rendezvous.Kv
