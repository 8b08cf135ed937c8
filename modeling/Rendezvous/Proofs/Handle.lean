/-
Rendezvous/Proofs/Handle.lean

Handles that serve one store.

Whoever holds such a handle has writes carried out, or refused without effect,
and reads answered from the store (`Serves`); the local handle is one
(`alone_serves`).  Whatever orders it carries out, a key keeps its value while
none of them writes to it (`Serves.get?_carryAll`).
-/
import Rendezvous.Proofs.Calls
import Rendezvous.Proofs.Message
import Rendezvous.Proofs.Table

namespace Rendezvous.Engine

variable {σ : Type} {e : Engine σ} {view : σ → Kv.Store} {key : String}

/-- A handle that serves one store, which `view` shows: a write is carried out,
or refused without effect, and a read is answered from the store. -/
structure Serves (e : Engine σ) (view : σ → Kv.Store) : Prop where
  write : ∀ bytes s,
    (∃ r, Kv.Request.decode bytes = .ok r ∧ view (e.write bytes s).2 = (view s).put r)
      ∨ (e.write bytes s).1 ≠ .ok () ∧ view (e.write bytes s).2 = view s
  read : ∀ bytes s r, Kv.Request.decode bytes = .ok r →
    (e.read bytes s).1 = .ok ((view s).reply r).encode
  keeps : ∀ bytes s, view (e.read bytes s).2 = view s

/-- The local handle takes a write that can be read, and no other. -/
theorem alone_write (leader : Uuid) (bytes : List UInt8) (s : Kv.Store) :
    (∃ r, Kv.Request.decode bytes = .ok r ∧ (alone leader).write bytes s = (.ok (), s.put r))
      ∨ ∃ e, Kv.Request.decode bytes = .error e
        ∧ (alone leader).write bytes s = (.error e, s) := by
  rcases hdecode : Kv.Request.decode bytes with e | r
  · have happly : s.apply bytes = .error e := by
      rw [Kv.Store.apply, hdecode]
      rfl
    exact Or.inr ⟨e, rfl, by simp only [alone, happly]⟩
  · have happly : s.apply bytes = .ok (s.put r) := by
      rw [Kv.Store.apply, hdecode]
      rfl
    exact Or.inl ⟨r, rfl, by simp only [alone, happly]⟩

theorem alone_write_encode (leader : Uuid) (r : Kv.Request) (s : Kv.Store) :
    (alone leader).write r.encode s = (.ok (), s.put r) := by
  rcases alone_write leader r.encode s with ⟨r', hdecode, hwrite⟩ | ⟨e, hdecode, -⟩
  · rw [Kv.Request.decode_encode] at hdecode
    cases hdecode
    exact hwrite
  · rw [Kv.Request.decode_encode] at hdecode
    cases hdecode

theorem alone_serves (leader : Uuid) : (alone leader).Serves id where
  write := by
    intro bytes s
    rcases alone_write leader bytes s with ⟨r, hdecode, hwrite⟩ | ⟨e, -, hwrite⟩
    · refine Or.inl ⟨r, hdecode, ?_⟩
      rw [hwrite]
      rfl
    · refine Or.inr ?_
      rw [hwrite]
      exact ⟨nofun, rfl⟩
  read := by
    intro bytes s r hdecode
    show (Kv.Request.decode bytes).map _ = _
    rw [hdecode]
    rfl
  keeps := fun _ _ => rfl

/-- Carry out an order. -/
def carry (e : Engine σ) (s : σ) : Order → σ
  | .write bytes => (e.write bytes s).2
  | .read bytes => (e.read bytes s).2

/-- Carry out orders, one after the other. -/
def carryAll (e : Engine σ) (s : σ) (l : List Order) : σ := l.foldl e.carry s

/-- An order to write a key. -/
def Order.WritesTo (key : String) : Order → Prop
  | .write bytes => ∃ r, Kv.Request.decode bytes = .ok r ∧ r.key = key
  | .read _ => False

theorem Serves.get?_carry (h : e.Serves view) {s : σ} {o : Order} (ho : ¬ o.WritesTo key) :
    (view (e.carry s o)).get? key = (view s).get? key := by
  cases o with
  | write bytes =>
    rcases h.write bytes s with ⟨r, hdecode, hview⟩ | ⟨-, hview⟩
    · have hne : key ≠ r.key := fun heq => ho ⟨r, hdecode, heq.symm⟩
      rw [carry, hview, Kv.Store.put, Table.get?_insert_ne _ _ hne]
    · rw [carry, hview]
  | read bytes => rw [carry, h.keeps]

/-- **What nobody writes to stays.** -/
theorem Serves.get?_carryAll (h : e.Serves view) {s : σ} {l : List Order}
    (hl : ∀ o ∈ l, ¬ o.WritesTo key) : (view (e.carryAll s l)).get? key = (view s).get? key := by
  induction l generalizing s with
  | nil => rfl
  | cons o l ih =>
    have hrest : (view (e.carryAll (e.carry s o) l)).get? key = (view (e.carry s o)).get? key :=
      ih fun o' ho' => hl o' (List.mem_cons_of_mem _ ho')
    exact hrest.trans (h.get?_carry (hl o (List.mem_cons_self ..)))

end Rendezvous.Engine
