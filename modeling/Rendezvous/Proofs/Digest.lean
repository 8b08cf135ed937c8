/-
Rendezvous/Proofs/Digest.lean

What the octets under a checksum tell of the tags.

They are the text of a list of strings, and a text is read back as what it was
written from, so the octets determine the strings and nothing about them is lost
(`message_eq_iff`).  The strings are the keys with their values, in the order of
the octets of the keys; the entries of a table stand in that order already, and
in no other (`inOctetOrder_iff`).

Where a key ends and its value begins is not marked.  So tags with different keys
may have the same strings, but tags with the same keys that have the same strings
are the same (`eq_of_lines`), and validation then lets a change of values pass
only if the check itself is the same for two different messages
(`message_identifies`).
-/
import Rendezvous.Proofs.Collation
import Rendezvous.Proofs.Seal
import Rendezvous.Proofs.Tree

namespace Rendezvous

/-- Two messages collide: they are different and have one check value. -/
def Crc32.Collide (m m' : List UInt8) : Prop := m ≠ m' ∧ checksum m = checksum m'

namespace Checksum

open Json Text

variable {l l' : List (String × String)} {tags tags' : TagSet}

/-! ### The array of strings -/

theorem itemsChars_ofString (strings : List String) :
    Tree.itemsChars (strings.map Tree.ofString)
      = [','].intercalate (strings.map fun s => escaped s.toList) := by
  induction strings with
  | nil => rfl
  | cons s rest ih =>
    cases rest with
    | nil => exact List.intercalate_singleton.symm
    | cons s' rest =>
      show Tree.chars (Tree.ofString s) ++ ',' :: Tree.itemsChars ((s' :: rest).map Tree.ofString) = _
      rw [ih]
      simp [Tree.ofString, Tree.chars, Tree.quotedChars]

/-- The array is the text of a tree. -/
theorem array_eq_chars (strings : List String) :
    array strings = (Tree.ofList (strings.map Tree.ofString)).chars := by
  rw [array, Tree.ofList, Tree.chars, itemsChars_ofString]

/-- **The text of a list of strings determines the strings.** -/
theorem array_injective {strings strings' : List String}
    (h : encodeUtf8 (array strings) = encodeUtf8 (array strings')) : strings = strings' := by
  have hread : ∀ strings : List String,
      read (encodeUtf8 (array strings)) = ⟨Tree.ofList (strings.map Tree.ofString), true⟩ := by
    intro strings
    rw [array_eq_chars]
    refine read_chars (.list fun t ht => ?_)
    obtain ⟨s, -, rfl⟩ := List.mem_map.mp ht
    exact .string s
  have htrees := (hread strings).symm.trans (h ▸ hread strings')
  have hinj : Function.Injective Tree.ofString := fun s s' hs => by
    simpa [Tree.ofString] using hs
  refine hinj.list_map ?_
  simpa [Tree.ofList] using htrees

/-- **The octets under a checksum are the same** exactly if the strings are. -/
theorem message_eq_iff : message l = message l' ↔ lines l = lines l' :=
  ⟨array_injective, fun h => by rw [message, message, h]⟩

/-! ### The order of the strings -/

/-- The entries of a set in the order of the octets of their keys. -/
structure InOctetOrder (tags : TagSet) (l : List (String × String)) : Prop where
  perm : l.Perm tags.toList
  ascending : l.Pairwise fun a b => octetsOf a.1 ≤ octetsOf b.1

/-- A table keeps its entries in that order, and there is no other such order. -/
theorem inOctetOrder_iff : InOctetOrder tags l ↔ l = tags.toList := by
  have htable : tags.toList.Pairwise fun a b => octetsOf a.1 ≤ octetsOf b.1 :=
    tags.ascending.imp fun h => octetsOf_le_iff.mpr (Std.le_of_lt h)
  constructor
  · rintro ⟨hperm, hascending⟩
    refine hperm.eq_of_pairwise (fun a b ha hb hab hba => ?_) hascending htable
    have hkey : a.1 = b.1 :=
      String.le_antisymm (octetsOf_le_iff.mp hab) (octetsOf_le_iff.mp hba)
    exact List.inj_on_of_nodup_map tags.ascending.nodup_keys (hperm.mem_iff.mp ha) hb hkey
  · rintro rfl
    exact ⟨List.Perm.refl _, htable⟩

/-! ### Sets with the same keys -/

/-- Where the keys are the same, so are the places at which the values begin. -/
theorem eq_of_lines (hkeys : l.map Prod.fst = l'.map Prod.fst)
    (h : l.map (fun e => e.1 ++ e.2) = l'.map fun e => e.1 ++ e.2) : l = l' := by
  induction l generalizing l' with
  | nil => exact (List.map_eq_nil_iff.mp hkeys.symm).symm
  | cons e rest ih =>
    obtain ⟨k, v⟩ := e
    cases l' with
    | nil => cases hkeys
    | cons e' rest' =>
      obtain ⟨k', v'⟩ := e'
      simp only [List.map_cons, List.cons.injEq] at hkeys h
      obtain ⟨rfl, hkeys⟩ := hkeys
      obtain ⟨hfirst, hrest⟩ := h
      rw [(String.append_right_inj k).mp hfirst, ih hkeys hrest]

theorem message_toList_eq_iff (hkeys : tags.keys = tags'.keys) :
    message tags.toList = message tags'.toList ↔ tags = tags' := by
  rw [message_eq_iff, lines_toList, lines_toList]
  constructor
  · intro h
    have hlist : tags.toList = tags'.toList := eq_of_lines hkeys h
    cases tags
    cases tags'
    subst hlist
    rfl
  · rintro rfl
    rfl

theorem keys_bare (hkeys : tags.keys = tags'.keys) : tags.bare.keys = tags'.bare.keys := by
  have hbare : ∀ tags : TagSet, tags.bare.keys = tags.keys.filter (· != Tag.checksum) := by
    intro tags
    rw [Table.keys, Table.keys, List.filter_map]
    rfl
  rw [hbare, hbare, hkeys]

/-- Two sets with the same keys have one checksum exactly if they are the same, or
their octets collide. -/
theorem of_eq_iff (hkeys : tags.keys = tags'.keys) :
    of tags = of tags'
      ↔ tags = tags' ∨ Crc32.Collide (message tags.toList) (message tags'.toList) := by
  rw [Crc32.Collide, Ne, message_toList_eq_iff hkeys, of, of, ofEntries, ofEntries, mk.injEq]
  constructor
  · intro h
    by_cases heq : tags = tags'
    · exact Or.inl heq
    · exact Or.inr ⟨heq, h⟩
  · rintro (rfl | ⟨-, h⟩)
    · rfl
    · exact h

/-- **The octets under the checksum identify the tags.**

In whichever order the entries of two sets come, the octets are the same exactly
if the lists of keys with their values, each in the order of the octets of the
keys, are equal.  For sets with the same keys they are the same exactly if the
sets are, so validation against the checksum of one lets the other pass only if
their other tags are the same, or the check does not tell two messages apart. -/
theorem message_identifies (tags tags' : TagSet) :
    (∀ e e' l l', e.Perm tags.toList → e'.Perm tags'.toList →
      InOctetOrder tags l → InOctetOrder tags' l' →
      (message e = message e'
        ↔ l.map (fun entry => entry.1 ++ entry.2) = l'.map fun entry => entry.1 ++ entry.2))
    ∧ (tags.keys = tags'.keys →
      (message tags.toList = message tags'.toList ↔ tags = tags')
      ∧ (tags'.validate (of tags.bare) = .ok ()
        ↔ tags.bare = tags'.bare
          ∨ Crc32.Collide (message tags.bare.toList) (message tags'.bare.toList))) := by
  constructor
  · rintro e e' l l' he he' hl hl'
    rw [message_enumeration he, message_enumeration he', message_eq_iff, lines_toList,
      lines_toList, inOctetOrder_iff.mp hl, inOctetOrder_iff.mp hl']
  · intro hkeys
    refine ⟨message_toList_eq_iff hkeys, ?_⟩
    rw [TagSet.validate_eq_ok_iff, eq_comm, of_eq_iff (keys_bare hkeys)]

end Checksum

end Rendezvous
