/-
Rendezvous/Proofs/Machine.lean

The state machine as a map.

Whoever has a machine calls it with bytes, to apply or to read them.  Bytes that
are no request are refused without effect, and a read has no effect at all, so
what a machine holds is told by the requests that were applied (`storeAfter_eq`).
It is a map that gives under each key the value applied there last, and has as
many entries as there are keys among them; reads are answered from this map
(`storeAfter_refines`).
-/
import Mathlib.Data.Finset.Card
import Rendezvous.Proofs.Member
import Rendezvous.Proofs.Message

namespace Rendezvous

/-! ### Size of a table -/

namespace Table

variable {α : Type}

/-- A table has as many entries as keys. -/
theorem size_eq_card (t : Table α) : t.size = t.keys.toFinset.card := by
  have hnodup : t.keys.Nodup := t.ascending.nodup_keys
  rw [List.toFinset_card_of_nodup hnodup, keys, List.length_map, size]

end Table

namespace Kv

/-! ### Calls -/

/-- A call of a machine, with its bytes. -/
inductive Call where
  | apply (bytes : List UInt8)
  | read (bytes : List UInt8)

/-- The request that is carried out for a call. -/
def Call.write? : Call → Option Request
  | apply bytes => (Request.decode bytes).toOption
  | read _ => none

namespace Store

/-- What a call gives back, and the store that it leaves behind. -/
def call (s : Store) : Call → Except Error (List UInt8) × Store
  | .apply bytes =>
    match s.apply bytes with
    | .ok s' => (.ok [], s')
    | .error e => (.error e, s)
  | .read bytes => (s.read bytes, s)

/-- The store of a new machine after some calls. -/
def storeAfter (calls : List Call) : Store := calls.foldl (fun s c => (s.call c).2) Table.empty

/-- The requests that are carried out for some calls. -/
def writesOf (calls : List Call) : List Request := calls.filterMap Call.write?

variable {s : Store} {bytes : List UInt8} {r : Request} {e : Error}

/-! ### One call -/

theorem call_apply_of_ok (h : Request.decode bytes = .ok r) :
    s.call (.apply bytes) = (.ok [], s.put r) := by
  have happly : s.apply bytes = .ok (s.put r) := by
    rw [apply, h]
    rfl
  rw [call, happly]

theorem call_apply_of_error (h : Request.decode bytes = .error e) :
    s.call (.apply bytes) = (.error e, s) := by
  have happly : s.apply bytes = .error e := by
    rw [apply, h]
    rfl
  rw [call, happly]

theorem call_read_of_ok (h : Request.decode bytes = .ok r) :
    s.call (.read bytes) = (.ok (s.reply r).encode, s) := by
  rw [call, read, h]
  rfl

theorem call_read_of_error (h : Request.decode bytes = .error e) :
    s.call (.read bytes) = (.error e, s) := by
  rw [call, read, h]
  rfl

/-- **A call carries out its request**, if it has one. -/
theorem call_snd (s : Store) (c : Call) : (s.call c).2 = s.putAll c.write?.toList := by
  cases c with
  | read bytes => rfl
  | apply bytes =>
    rw [Call.write?]
    rcases h : Request.decode bytes with e | r
    · rw [call_apply_of_error h]
      rfl
    · rw [call_apply_of_ok h]
      rfl

/-! ### Any number of calls -/

/-- A machine holds what was carried out. -/
theorem storeAfter_eq (calls : List Call) :
    storeAfter calls = putAll Table.empty (writesOf calls) := by
  induction calls using List.reverseRecOn with
  | nil => rfl
  | append_singleton before c ih =>
    have hwrites : writesOf (before ++ [c]) = writesOf before ++ c.write?.toList := by
      rw [writesOf, List.filterMap_append, List.filterMap_cons]
      cases c.write? <;> rfl
    have hstore : storeAfter (before ++ [c]) = ((storeAfter before).call c).2 := by
      rw [storeAfter, List.foldl_append]
      rfl
    rw [hstore, hwrites, call_snd, ih, putAll, putAll, putAll, List.foldl_append]

theorem get?_storeAfter (calls : List Call) (key : String) :
    (storeAfter calls).get? key = lastValue? key (writesOf calls) := by
  rw [storeAfter_eq, get?_putAll, Table.get?_empty, Option.or_none]

/-- A key has a value if it was written to. -/
theorem isSome_lastValue?_iff {key : String} {l : List Request} :
    (lastValue? key l).isSome ↔ key ∈ l.map Request.key := by
  rw [lastValue?, Option.isSome_map, List.find?_isSome, List.mem_map]
  simp

/-- There are as many entries as keys that were written to. -/
theorem size_storeAfter (calls : List Call) :
    (storeAfter calls).size = ((writesOf calls).map Request.key).toFinset.card := by
  rw [Table.size_eq_card]
  congr 1
  ext key
  rw [List.mem_toFinset, List.mem_toFinset, Table.mem_keys_iff, get?_storeAfter,
    isSome_lastValue?_iff]

/-- **The machine is a map from keys to values.**  After any calls, whatever their
bytes, it holds under each key the value of the last request applied to it, and its
size is the number of keys among these requests.  Bytes that are no request are
refused by either call, without effect.  Applying a request puts its value under its
key and leaves the others as they are; reading it has no effect, and gives bytes that
are the reply with the value last applied to its key, or that there is none. -/
theorem storeAfter_refines (calls : List Call) (bytes : List UInt8) :
    let s := storeAfter calls
    let writes := writesOf calls
    (∀ key, s.get? key = lastValue? key writes)
    ∧ s.size = (writes.map Request.key).toFinset.card
    ∧ match Request.decode bytes with
      | .error e =>
        s.call (.apply bytes) = (.error e, s) ∧ s.call (.read bytes) = (.error e, s)
      | .ok r =>
        (∃ s', s.call (.apply bytes) = (.ok [], s')
          ∧ ∀ key, s'.get? key = if key = r.key then some r.value else lastValue? key writes)
        ∧ ∃ reply, s.call (.read bytes) = (.ok reply, s)
          ∧ Response.decode reply = .ok (match lastValue? r.key writes with
            | some value => ⟨0, value⟩
            | none => ⟨-1, Text.octetsOf "key not found"⟩) := by
  intro s writes
  refine ⟨get?_storeAfter calls, size_storeAfter calls, ?_⟩
  rcases hdecode : Request.decode bytes with e | r
  · exact ⟨call_apply_of_error hdecode, call_read_of_error hdecode⟩
  · refine ⟨⟨s.put r, call_apply_of_ok hdecode, fun key => ?_⟩,
      (s.reply r).encode, call_read_of_ok hdecode, ?_⟩
    · rw [put, Table.get?_insert, get?_storeAfter]
    · rw [Response.decode_encode, reply, get?_storeAfter]
      cases lastValue? r.key (writesOf calls) <;> rfl

end Store

end Kv

end Rendezvous
