/-
Rendezvous/Proofs/Seal.lean

Sealed tag sets.

The text of a checksum is read back as that checksum (`parse_text`), and a
checksum does not depend on the order in which the entries come
(`ofEntries_enumeration`).  With these, unsealing is described by one
equivalence,

    unsealed tags = .ok t  ↔  t = bare tags, and the checksum tag of `tags`
                              is a text of the checksum of `t`

and a set that has been sealed unseals to all its other tags
(`unsealed_sealed`).  The laws of sealing, validating and unsealing are put
together in `seal_unseal`.
-/
import Rendezvous.Proofs.Table
import Rendezvous.Proofs.Uuid
import Rendezvous.Seal

namespace Rendezvous

namespace Checksum

/-! ### Octets of a checksum -/

/-- The octets of a word make up the word again. -/
theorem ofOctets_of_word (v : UInt32) :
    ofOctets v.toUInt8 (v >>> 8).toUInt8 (v >>> 16).toUInt8 (v >>> 24).toUInt8 = ⟨v⟩ := by
  have hv : v.toNat < 2 ^ 32 := v.toNat_lt
  -- bit by bit: each bit below 32 comes from exactly one of the octets
  have hhigh : ∀ i, 32 ≤ i → v.toNat.testBit i = false := by
    intro i hi
    exact Nat.testBit_lt_two_pow (Nat.lt_of_lt_of_le hv (Nat.pow_le_pow_right (by decide) hi))
  rw [ofOctets]
  congr 1
  apply UInt32.toNat_inj.mp
  simp only [UInt32.toNat_or, UInt32.toNat_shiftLeft, UInt8.toNat_toUInt32,
    UInt32.toNat_toUInt8, UInt32.toNat_shiftRight]
  apply Nat.eq_of_testBit_eq
  intro i
  have hi := hhigh i
  simp only [Nat.testBit_or, Nat.testBit_mod_two_pow, Nat.testBit_shiftLeft,
    Nat.testBit_shiftRight, UInt32.reduceToNat, Nat.reduceMod]
  grind

/-! ### Text of a checksum -/

theorem readNumeral_digitChars {h l : Nat} (hh : h < 16) (hl : l < 16) :
    (Text.readNumeral 16 256 [Text.digitChar h, Text.digitChar l]).toOption
      = some (h * 16 + l) := by
  have hall : ∀ h < 16, ∀ l < 16,
      (Text.readNumeral 16 256 [Text.digitChar h, Text.digitChar l]).toOption
        = some (h * 16 + l) := by
    decide
  exact hall h hh l hl

/-- The two digits of an octet are read as that octet. -/
theorem octet?_digits (b : UInt8) :
    octet? (Text.digitChar (b.toNat / 16)) (Text.digitChar (b.toNat % 16)) = some b := by
  have hb : b.toNat < 256 := b.toNat_lt
  have hsplit : b.toNat / 16 * 16 + b.toNat % 16 = b.toNat := by omega
  rw [octet?, readNumeral_digitChars (by omega) (by omega), hsplit]
  exact congrArg some UInt8.ofNat_toNat

/-- **The text of a checksum is read back as that checksum.** -/
theorem parse_text (c : Checksum) : parse c.text = .ok c := by
  obtain ⟨v⟩ := c
  have hread : ofText? (text ⟨v⟩) = some ⟨v⟩ := by
    rw [ofText?, text, String.toList_ofList]
    simp only [octets, List.flatMap_cons, List.flatMap_nil, Text.hexPadded_two, List.cons_append,
      List.nil_append]
    rw [octet?_digits, octet?_digits, octet?_digits, octet?_digits, ← ofOctets_of_word v]
    rfl
  rw [parse, hread]

/-! ### The digest -/

/-- The entries of a table need not be sorted any more. -/
theorem lines_toList (tags : TagSet) :
    lines tags.toList = tags.toList.map fun e => e.1 ++ e.2 := by
  rw [lines, List.mergeSort_of_pairwise]
  exact tags.ascending.imp fun h => decide_eq_true (String.not_lt.mp (String.lt_asymm h))

/-- Entries with pairwise different keys have the same octets under the checksum
in whichever order they come. -/
theorem message_eq_of_perm {l l' : List (String × String)} (hperm : l.Perm l')
    (h : (l.map Prod.fst).Nodup) : message l = message l' := by
  rw [message, message, lines, lines, sortByName_eq_of_perm Prod.fst hperm h]

/-- The octets under the checksum of a tag set, from any enumeration of its entries. -/
theorem message_enumeration {tags : TagSet} {l : List (String × String)}
    (h : l.Perm tags.toList) : message l = message tags.toList :=
  message_eq_of_perm h (Table.enumeration_nodup_keys h)

/-- The checksum of a tag set, from any enumeration of its entries. -/
theorem ofEntries_enumeration {tags : TagSet} {l : List (String × String)}
    (h : l.Perm tags.toList) : ofEntries l = of tags := by
  rw [of, ofEntries, ofEntries, message_enumeration h]

end Checksum

/-! ### Sealing -/

namespace TagSet

theorem get?_bare (tags : TagSet) (k : String) :
    tags.bare.get? k = if k = Tag.checksum then none else tags.get? k :=
  Table.get?_erase tags Tag.checksum k

theorem get?_sealed_ne (tags : TagSet) {k : String} (hk : k ≠ Tag.checksum) :
    tags.sealed.get? k = tags.get? k :=
  Table.get?_insert_ne tags _ hk

/-- The checksum of a sealed set is over the same tags as before. -/
theorem bare_sealed (tags : TagSet) : tags.sealed.bare = tags.bare := by
  refine Table.ext_get? fun k => ?_
  rw [get?_bare, get?_bare]
  by_cases hk : k = Tag.checksum
  · rw [if_pos hk, if_pos hk]
  · rw [if_neg hk, if_neg hk, get?_sealed_ne _ hk]

/-! ### Unsealing -/

theorem bareEntries_perm {tags : TagSet} {l : List (String × String)} (h : l.Perm tags.toList) :
    (bareEntries l).Perm tags.bare.toList :=
  h.filter _

/-- The checksum that entries in any order should carry is that of the other tags. -/
theorem ofEntries_bareEntries {tags : TagSet} {l : List (String × String)}
    (h : l.Perm tags.toList) : Checksum.ofEntries (bareEntries l) = Checksum.of tags.bare :=
  Checksum.ofEntries_enumeration (bareEntries_perm h)

theorem bareEntries_bareEntries (l : List (String × String)) :
    bareEntries (bareEntries l) = bareEntries l := by
  rw [bareEntries, bareEntries, List.filter_filter]
  simp only [Bool.and_self]

theorem validateEntries_eq_ok_iff {l : List (String × String)} {c : Checksum} :
    validateEntries l c = .ok () ↔ Checksum.ofEntries (bareEntries l) = c := by
  rw [validateEntries]
  by_cases h : Checksum.ofEntries (bareEntries l) = c
  · show (if _ then _ else _) = _ ↔ _
    rw [if_pos h]
    exact ⟨fun _ => h, fun _ => rfl⟩
  · show (if _ then _ else _) = _ ↔ _
    rw [if_neg h]
    exact ⟨nofun, fun h' => absurd h' h⟩

/-- Entries unseal exactly if they carry the right checksum. -/
theorem unsealedEntries_eq_ok_iff {l rest : List (String × String)} :
    unsealedEntries l = .ok rest ↔ rest = bareEntries l ∧ ∃ v, l.lookup Tag.checksum = some v
      ∧ Checksum.parse v = .ok (Checksum.ofEntries (bareEntries l)) := by
  rw [unsealedEntries]
  rcases l.lookup Tag.checksum with _ | v
  · constructor
    · nofun
    · rintro ⟨-, v, hv, -⟩
      cases hv
  · show (do
        let c ← Checksum.parse v
        validateEntries (bareEntries l) c
        Except.ok (bareEntries l)) = Except.ok rest ↔ _
    rcases hparse : Checksum.parse v with e | c
    · constructor
      · nofun
      · rintro ⟨-, w, hw, hc⟩
        cases hw
        rw [hparse] at hc
        cases hc
    · -- validation leaves the checksum out once more
      have hvalid := validateEntries_eq_ok_iff (l := bareEntries l) (c := c)
      rw [bareEntries_bareEntries] at hvalid
      show (do validateEntries (bareEntries l) c; Except.ok (bareEntries l)) = Except.ok rest ↔ _
      rcases hval : validateEntries (bareEntries l) c with e | u
      · constructor
        · nofun
        · rintro ⟨-, w, hw, hc⟩
          cases hw
          rw [hparse] at hc
          rw [hvalid.mpr (Except.ok.inj hc).symm] at hval
          cases hval
      · have hc := hvalid.mp hval
        constructor
        · intro h
          cases h
          exact ⟨rfl, v, rfl, hc ▸ hparse⟩
        · rintro ⟨rfl, -⟩
          rfl

/-- In whichever order the entries of a set come, they unseal as the set does. -/
theorem unsealedEntries_enumeration {tags : TagSet} {l : List (String × String)}
    (h : l.Perm tags.toList) :
    unsealedEntries l = (unsealedEntries tags.toList).map fun _ => bareEntries l := by
  have hget : l.lookup Tag.checksum = tags.toList.lookup Tag.checksum :=
    Table.lookup_enumeration h Tag.checksum
  have hsum : Checksum.ofEntries (bareEntries l)
      = Checksum.ofEntries (bareEntries tags.toList) :=
    (ofEntries_bareEntries h).trans (ofEntries_bareEntries (List.Perm.refl _)).symm
  have hvalid : validateEntries (bareEntries l) = validateEntries (bareEntries tags.toList) := by
    funext c
    rw [validateEntries, validateEntries, bareEntries_bareEntries, bareEntries_bareEntries, hsum]
  rw [unsealedEntries, unsealedEntries, hget, hvalid]
  rcases tags.toList.lookup Tag.checksum with _ | v
  · rfl
  · simp only [bind, Except.bind]
    rcases Checksum.parse v with e | c
    · rfl
    · dsimp only
      rcases validateEntries (bareEntries tags.toList) c with e | u
      · rfl
      · rfl

/-- A set has the right checksum under the checksum's tag. -/
def IsSealed (tags : TagSet) : Prop :=
  ∃ v, tags.get? Tag.checksum = some v ∧ Checksum.parse v = .ok (Checksum.of tags.bare)

/-- **A set unseals exactly if it carries the right checksum**, and what comes
out of it is all the rest. -/
theorem unsealed_eq_ok_iff {tags t : TagSet} :
    tags.unsealed = .ok t ↔ t = tags.bare ∧ tags.IsSealed := by
  rw [unsealed]
  rcases hun : unsealedEntries tags.toList with e | rest
  · constructor
    · nofun
    · rintro ⟨-, hsealed⟩
      have hok := unsealedEntries_eq_ok_iff.mpr ⟨rfl, hsealed⟩
      rw [hun] at hok
      cases hok
  · obtain ⟨rfl, hsealed⟩ := unsealedEntries_eq_ok_iff.mp hun
    constructor
    · intro h
      cases h
      exact ⟨rfl, hsealed⟩
    · rintro ⟨rfl, -⟩
      rfl

theorem isSealed_sealed (tags : TagSet) : tags.sealed.IsSealed := by
  refine ⟨(Checksum.of tags.bare).text, Table.get?_insert_self .., ?_⟩
  rw [bare_sealed]
  exact Checksum.parse_text _

/-- **Sealing and unsealing keeps every tag but the checksum.** -/
theorem unsealed_sealed (tags : TagSet) : tags.sealed.unsealed = .ok tags.bare :=
  unsealed_eq_ok_iff.mpr ⟨(bare_sealed tags).symm, isSealed_sealed tags⟩

/-! ### A set and its checksum

Taking the checksum off and putting one on are inverse to each other, whatever
the checksum is; sealing puts on the right one.
-/

variable {tags t : TagSet} {v : String}

theorem bare_of_get?_eq_none (h : t.get? Tag.checksum = none) : t.bare = t := by
  refine Table.ext_get? fun k => ?_
  rw [get?_bare]
  split
  · rename_i hk
    rw [hk, h]
  · rfl

theorem bare_insert_checksum (t : TagSet) (v : String) :
    bare (t.insert Tag.checksum v) = t.bare := by
  refine Table.ext_get? fun k => ?_
  rw [get?_bare, get?_bare, Table.get?_insert]
  by_cases hk : k = Tag.checksum <;> simp [hk]

theorem insert_bare (h : tags.get? Tag.checksum = some v) :
    tags.bare.insert Tag.checksum v = tags := by
  refine Table.ext_get? fun k => ?_
  rw [Table.get?_insert, get?_bare]
  by_cases hk : k = Tag.checksum <;> simp [hk, h]

/-- A set is what is left of another without its checksum exactly if the other
has one and is made up of both. -/
theorem eq_bare_iff (h : tags.get? Tag.checksum = some v) :
    t = tags.bare ↔ t.get? Tag.checksum = none ∧ tags = t.insert Tag.checksum v := by
  constructor
  · rintro rfl
    exact ⟨by rw [get?_bare, if_pos rfl], (insert_bare h).symm⟩
  · rintro ⟨hnone, rfl⟩
    rw [bare_insert_checksum, bare_of_get?_eq_none hnone]

/-- The checksum is over the other tags, so putting it on does not change it. -/
theorem sealed_sealed (tags : TagSet) : tags.sealed.sealed = tags.sealed := by
  show tags.sealed.insert Tag.checksum (Checksum.of tags.sealed.bare).text = _
  rw [bare_sealed]
  refine Table.ext_get? fun k => ?_
  rw [Table.get?_insert]
  split
  · rename_i hk
    rw [hk, sealed, Table.get?_insert_self]
  · rfl

theorem validate_eq_ok_iff {c : Checksum} : tags.validate c = .ok () ↔ Checksum.of tags.bare = c :=
  validateEntries_eq_ok_iff

/-- Validation reads the other tags only. -/
theorem validate_congr {tags' : TagSet} (h : tags.bare = tags'.bare) (c : Checksum) :
    tags.validate c = tags'.validate c := by
  have hentries : bareEntries tags.toList = bareEntries tags'.toList := congrArg Table.toList h
  rw [validate, validate, validateEntries, validateEntries, hentries]

theorem validateEntries_enumeration {l : List (String × String)} (h : l.Perm tags.toList)
    (c : Checksum) : validateEntries l c = tags.validate c := by
  rw [validate, validateEntries, validateEntries, ofEntries_bareEntries h,
    ofEntries_bareEntries (List.Perm.refl _)]

/-- **Sealing and unsealing are inverse to each other, and free of order.**

In whichever order the entries of a set come, with or without a checksum among
them, they have one checksum, they are validated as the set is, and they unseal
as the set does, to what they are without their checksum.  Sealing changes no
other tag, sealing again changes nothing, and a sealed set unseals to what it
was without a checksum.  A set unseals to another exactly if it is the other one
together with a tag that is read as the other one's checksum; what validation
accepts is the checksum of the other tags and nothing else, before sealing as
afterwards. -/
theorem seal_unseal (tags : TagSet) :
    (∀ l, l.Perm tags.toList → Checksum.ofEntries l = Checksum.of tags
      ∧ (∀ c, validateEntries l c = tags.validate c)
      ∧ unsealedEntries l = tags.unsealed.map (fun _ => bareEntries l)
      ∧ (bareEntries l).Perm tags.bare.toList)
    ∧ ((∀ k, k ≠ Tag.checksum → tags.sealed.get? k = tags.get? k)
      ∧ tags.sealed.sealed = tags.sealed)
    ∧ tags.sealed.unsealed = .ok tags.bare
    ∧ (∀ t, tags.unsealed = .ok t ↔ t.get? Tag.checksum = none
      ∧ ∃ v, tags = t.insert Tag.checksum v ∧ Checksum.parse v = .ok (Checksum.of t))
    ∧ ∀ c, (tags.validate c = .ok () ↔ c = Checksum.of tags.bare)
      ∧ tags.sealed.validate c = tags.validate c := by
  refine ⟨?_, ⟨fun k => get?_sealed_ne tags, sealed_sealed tags⟩, unsealed_sealed tags, ?_, ?_⟩
  · intro l hl
    refine ⟨Checksum.ofEntries_enumeration hl, validateEntries_enumeration hl, ?_,
      bareEntries_perm hl⟩
    rw [unsealedEntries_enumeration hl, unsealed]
    cases unsealedEntries tags.toList <;> rfl
  · intro t
    rw [unsealed_eq_ok_iff]
    constructor
    · rintro ⟨rfl, v, hv, hparse⟩
      obtain ⟨hnone, hset⟩ := (eq_bare_iff hv).mp rfl
      exact ⟨hnone, v, hset, hparse⟩
    · rintro ⟨hnone, v, rfl, hparse⟩
      have hbare : t = bare (t.insert Tag.checksum v) :=
        (eq_bare_iff (Table.get?_insert_self ..)).mpr ⟨hnone, rfl⟩
      exact ⟨hbare, v, Table.get?_insert_self .., hbare ▸ hparse⟩
  · intro c
    exact ⟨validate_eq_ok_iff.trans eq_comm, validate_congr (bare_sealed tags) c⟩

end TagSet

end Rendezvous
