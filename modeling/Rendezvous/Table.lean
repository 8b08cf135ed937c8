/-
Rendezvous/Table.lean

Finite maps whose keys are names.

Tag sets, member tables and key-value stores are all finite maps from
strings.  A `Table` keeps its entries in strictly ascending key order, and
carries the proof of it, so two tables with the same entries are the same
list and equality of tables is equality of maps.  The order of strings is by
code point, which is also the order of their UTF-8 octets.

Whatever a program makes of a table can therefore not depend on the order in
which entries arrived; where that independence is worth stating, the
functions concerned take a plain list of entries instead.
-/

namespace Rendezvous

variable {α β : Type}

/-! ### Entry lists in ascending key order -/

/-- Put `v` under `k`, before the first entry with a larger key. -/
def insertEntry (k : String) (v : α) : List (String × α) → List (String × α)
  | [] => [(k, v)]
  | (k', v') :: rest =>
    if k < k' then (k, v) :: (k', v') :: rest
    else if k = k' then (k, v) :: rest
    else (k', v') :: insertEntry k v rest

/-- The keys of an entry list ascend strictly. -/
def Ascending (l : List (String × α)) : Prop :=
  l.Pairwise fun a b => a.1 < b.1

/-- What an insertion leaves behind is the new entry or an old one. -/
theorem mem_insertEntry {k : String} {v : α} {e : String × α}
    {l : List (String × α)} (h : e ∈ insertEntry k v l) :
    e = (k, v) ∨ e ∈ l := by
  induction l with
  | nil => simpa [insertEntry] using h
  | cons e' rest ih =>
    rw [insertEntry] at h
    split at h
    · simpa using h
    · split at h
      · rcases List.mem_cons.1 h with h | h
        · exact Or.inl h
        · exact Or.inr (List.mem_cons_of_mem _ h)
      · rcases List.mem_cons.1 h with h | h
        · exact Or.inr (h ▸ List.mem_cons_self ..)
        · exact (ih h).imp_right (List.mem_cons_of_mem _)

theorem insertEntry_ascending (k : String) (v : α) {l : List (String × α)}
    (h : Ascending l) : Ascending (insertEntry k v l) := by
  induction l with
  | nil => simp [insertEntry, Ascending]
  | cons e rest ih =>
    have ⟨hhead, htail⟩ := List.pairwise_cons.1 h
    rw [insertEntry]
    split
    · rename_i hlt
      refine List.pairwise_cons.2 ⟨fun a ha => ?_, h⟩
      rcases List.mem_cons.1 ha with ha | ha
      · exact ha ▸ hlt
      · exact String.lt_trans hlt (hhead a ha)
    · rename_i hnlt
      split
      · rename_i heq
        exact List.pairwise_cons.2 ⟨fun a ha => heq ▸ hhead a ha, htail⟩
      · rename_i hne
        refine List.pairwise_cons.2 ⟨fun a ha => ?_, ih htail⟩
        rcases mem_insertEntry ha with ha | ha
        · have hle : e.1 ≤ k := String.not_lt.1 hnlt
          subst ha
          exact Classical.byContradiction fun hge =>
            hne (String.le_antisymm (String.not_lt.1 hge) hle)
        · exact hhead a ha

theorem filter_ascending (p : String × α → Bool) {l : List (String × α)}
    (h : Ascending l) : Ascending (l.filter p) :=
  List.Pairwise.filter p h

theorem map_ascending (f : α → β) {l : List (String × α)} (h : Ascending l) :
    Ascending (l.map fun e => (e.1, f e.2)) :=
  List.pairwise_map.2 h

/-! ### Tables -/

/-- A finite map from names, as its entries in ascending key order. -/
structure Table (α : Type) where
  toList : List (String × α)
  ascending : Ascending toList
  deriving DecidableEq, Repr

namespace Table

/-- The table without entries. -/
def empty : Table α := ⟨[], List.Pairwise.nil⟩

instance : Inhabited (Table α) := ⟨empty⟩

/-- The value under a key. -/
def get? (t : Table α) (k : String) : Option α := t.toList.lookup k

/-- Whether a key has a value. -/
def contains (t : Table α) (k : String) : Bool := (t.get? k).isSome

/-- Put a value under a key, in place of any value it had. -/
def insert (t : Table α) (k : String) (v : α) : Table α :=
  ⟨insertEntry k v t.toList, insertEntry_ascending k v t.ascending⟩

/-- Forget a key. -/
def erase (t : Table α) (k : String) : Table α :=
  ⟨t.toList.filter fun e => e.1 != k, filter_ascending _ t.ascending⟩

/-- Change every value, whatever its key. -/
def map (f : α → β) (t : Table α) : Table β :=
  ⟨t.toList.map fun e => (e.1, f e.2), map_ascending f t.ascending⟩

/-- Number of entries. -/
def size (t : Table α) : Nat := t.toList.length

/-- Values in key order. -/
def values (t : Table α) : List α := t.toList.map Prod.snd

/-- Keys in ascending order. -/
def keys (t : Table α) : List String := t.toList.map Prod.fst

/-- Insert entries from left to right: of two with one key the later stays. -/
def insertAll (t : Table α) (l : List (String × α)) : Table α :=
  l.foldl (fun t e => t.insert e.1 e.2) t

/-- The table of a list of entries. -/
def ofList (l : List (String × α)) : Table α := empty.insertAll l

end Table

end Rendezvous
