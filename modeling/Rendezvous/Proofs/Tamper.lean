/-
Rendezvous/Proofs/Tamper.lean

Sealed tags that are changed afterwards.

Under the checksum the value of a tag stands in one piece, and all around it is
settled by the other tags and the names (`exists_message_insert`).  So where the
octets of two values, as they are written between quotes, differ in a window of
four, those under the checksum do so too, and the checksums are different
(`of_insert_ne_of_near`).  Unsealing then reports both of them
(`short_change_mismatch`).

A character in place of another that is written with as many octets is such a
change: those written with more than four octets have the first four of these in
common (`near_escapeChar`).
-/
import Rendezvous.Proofs.Base64
import Rendezvous.Proofs.Crc32
import Rendezvous.Proofs.Json
import Rendezvous.Proofs.Seal

namespace Rendezvous

/-! ### Windows -/

/-- Lists of one length that differ in some window of four places at most. -/
def Near (l l' : List UInt8) : Prop :=
  l.length = l'.length ∧ ∃ i, ∀ j, j < i ∨ i + 4 ≤ j → l[j]? = l'[j]?

/-- Lists are near each other if a piece of one stands in place of a piece of the
other. -/
theorem near_iff {l l' : List UInt8} :
    Near l l' ↔ ∃ front x y back, l = front ++ x ++ back ∧ l' = front ++ y ++ back
      ∧ x.length = y.length ∧ x.length ≤ 4 := by
  constructor
  · rintro ⟨hlength, i, hsame⟩
    refine ⟨l.take i, (l.drop i).take 4, (l'.drop i).take 4, l.drop (i + 4), ?_, ?_, ?_, ?_⟩
    · rw [List.append_assoc, ← List.drop_drop, List.take_append_drop, List.take_append_drop]
    · have hfront : l.take i = l'.take i := by
        refine List.ext_getElem? fun j => ?_
        rw [List.getElem?_take, List.getElem?_take]
        split
        · exact hsame j (Or.inl ‹_›)
        · rfl
      have hback : l.drop (i + 4) = l'.drop (i + 4) := by
        refine List.ext_getElem? fun j => ?_
        rw [List.getElem?_drop, List.getElem?_drop]
        exact hsame _ (Or.inr (Nat.le_add_right _ _))
      rw [hfront, hback, List.append_assoc, ← List.drop_drop, List.take_append_drop,
        List.take_append_drop]
    · rw [List.length_take, List.length_take, List.length_drop, List.length_drop, hlength]
    · rw [List.length_take]
      exact Nat.min_le_left ..
  · rintro ⟨front, x, y, back, rfl, rfl, hlength, hfour⟩
    refine ⟨by simp only [List.length_append, hlength], front.length, fun j hj => ?_⟩
    rw [List.append_assoc, List.append_assoc]
    rcases hj with hbefore | hbehind
    · rw [List.getElem?_append_left hbefore, List.getElem?_append_left hbefore]
    · rw [List.getElem?_append_right (by omega), List.getElem?_append_right (by omega),
        List.getElem?_append_right (by omega), List.getElem?_append_right (by omega), hlength]

theorem Near.append {l l' : List UInt8} (h : Near l l') (front back : List UInt8) :
    Near (front ++ l ++ back) (front ++ l' ++ back) := by
  obtain ⟨front', x, y, back', rfl, rfl, hlength, hfour⟩ := near_iff.mp h
  refine near_iff.mpr ⟨front ++ front', x, y, back' ++ back, ?_, ?_, hlength, hfour⟩
  · simp only [List.append_assoc]
  · simp only [List.append_assoc]

/-- **The check tells apart** what is near each other and not the same. -/
theorem Crc32.checksum_ne_of_near {l l' : List UInt8} (h : Near l l') (hne : l ≠ l') :
    checksum l ≠ checksum l' := by
  obtain ⟨front, x, y, back, rfl, rfl, hlength, hfour⟩ := near_iff.mp h
  refine checksum_ne_of_burst hlength hfour ?_ front back
  rintro rfl
  exact hne rfl

/-! ### Texts between quotes -/

namespace Text

/-- The octets of a text as it is written between quotes. -/
def escapedOctets (s : String) : List UInt8 := encodeUtf8 (s.toList.flatMap escapeChar)

theorem escapedOctets_append (s s' : String) :
    escapedOctets (s ++ s') = escapedOctets s ++ escapedOctets s' := by
  rw [escapedOctets, String.toList_append, List.flatMap_append, encodeUtf8_append]
  rfl

/-- What is written can be read, so different texts are written differently. -/
theorem escapedOctets_injective {s s' : String} (h : escapedOctets s = escapedOctets s') :
    s = s' := by
  have hread : ∀ s : String, Json.readString (escapedOctets s ++ [34])
      = some (some (encodeUtf8 s.toList), []) := by
    intro s
    have hs := Json.readString_escaped s.toList []
    rwa [List.append_nil, encodeUtf8_append] at hs
  have hsame := hread s
  rw [h, hread s'] at hsame
  simp only [Option.some.injEq, Prod.mk.injEq, and_true] at hsame
  exact (String.toList_inj.mp (encodeUtf8_injective hsame)).symm

theorem escapeChar_of_le {c : Char} (h : 32 ≤ c.toNat) (hquote : c ≠ '"') (hback : c ≠ '\\') :
    escapeChar c = [c] := by
  have hne : ∀ {d : Char}, d.toNat < 32 → c ≠ d := by
    rintro d hd rfl
    omega
  rw [escapeChar, if_neg hquote, if_neg hback, if_neg (hne (by decide)), if_neg (hne (by decide)),
    if_neg (hne (by decide)), if_neg (by omega), if_neg (by omega), if_neg (by omega)]

/-- A character is written with four octets at most, or with six of which only
the last two are its own. -/
theorem escapeChar_short_or_long (c : Char) :
    (encodeUtf8 (escapeChar c)).length ≤ 4
      ∨ ∃ last : List UInt8, encodeUtf8 (escapeChar c) = [92, 117, 48, 48] ++ last
        ∧ last.length = 2 := by
  rcases Nat.lt_or_ge c.toNat 32 with hcontrol | hle
  · have hall : ∀ n < 32, (encodeUtf8 (escapeChar (Char.ofNat n))).length ≤ 4
        ∨ (encodeUtf8 (escapeChar (Char.ofNat n))).take 4 = [92, 117, 48, 48]
          ∧ ((encodeUtf8 (escapeChar (Char.ofNat n))).drop 4).length = 2 := by decide
    have hc := hall c.toNat hcontrol
    rw [Char.ofNat_toNat] at hc
    refine hc.imp_right fun hlong => ⟨_, ?_, hlong.2⟩
    rw [← hlong.1, List.take_append_drop]
  · refine Or.inl ?_
    by_cases hquote : c = '"'
    · rw [hquote]
      decide
    by_cases hback : c = '\\'
    · rw [hback]
      decide
    rw [escapeChar_of_le hle hquote hback, encodeUtf8, List.flatMap_singleton,
      String.length_utf8EncodeChar]
    exact c.utf8Size_le_four

/-- Characters that are written with as many octets are near each other. -/
theorem near_escapeChar {c c' : Char}
    (h : (encodeUtf8 (escapeChar c)).length = (encodeUtf8 (escapeChar c')).length) :
    Near (encodeUtf8 (escapeChar c)) (encodeUtf8 (escapeChar c')) := by
  rcases escapeChar_short_or_long c with hshort | ⟨last, hc, hlast⟩
  · exact near_iff.mpr ⟨[], _, _, [], (List.append_nil _).symm, (List.append_nil _).symm, h, hshort⟩
  · rcases escapeChar_short_or_long c' with hshort | ⟨last', hc', hlast'⟩
    · rw [hc, List.length_append, hlast] at h
      rw [← h] at hshort
      exact absurd hshort (by decide)
    · rw [hc, hc']
      refine near_iff.mpr ⟨[92, 117, 48, 48], last, last', [], ?_, ?_, hlast.trans hlast'.symm, ?_⟩
      · rw [List.append_nil]
      · rw [List.append_nil]
      · omega

end Text

open Text

/-- A short change of a text: as it is written, in a window of four octets, or of
one character for another that is written with as many octets. -/
inductive ShortChange : String → String → Prop
  | window {s s' : String} (h : Near (escapedOctets s) (escapedOctets s')) : ShortChange s s'
  | character (front back : String) {c c' : Char}
      (h : (encodeUtf8 (escapeChar c)).length = (encodeUtf8 (escapeChar c')).length) :
    ShortChange (front ++ c.toString ++ back) (front ++ c'.toString ++ back)

theorem ShortChange.near {s s' : String} (h : ShortChange s s') :
    Near (escapedOctets s) (escapedOctets s') := by
  cases h with
  | window h => exact h
  | character front back h =>
    have hone : ∀ c : Char, escapedOctets c.toString = encodeUtf8 (escapeChar c) := by
      intro c
      rw [escapedOctets, Char.toString, String.toList_singleton, List.flatMap_singleton]
    simp only [escapedOctets_append, hone]
    exact (near_escapeChar h).append _ _

/-! ### Under the checksum -/

/-- The place of a key does not depend on its value. -/
theorem exists_insertEntry {α : Type} (k : String) (l : List (String × α)) :
    ∃ before after, ∀ v, insertEntry k v l = before ++ (k, v) :: after := by
  induction l with
  | nil => exact ⟨[], [], fun _ => rfl⟩
  | cons e rest ih =>
    obtain ⟨k', v'⟩ := e
    obtain ⟨before, after, hrest⟩ := ih
    by_cases hlt : k < k'
    · exact ⟨[], (k', v') :: rest, fun v => if_pos hlt⟩
    by_cases heq : k = k'
    · refine ⟨[], rest, fun v => ?_⟩
      rw [insertEntry, if_neg hlt, if_pos heq]
      rfl
    · refine ⟨(k', v') :: before, after, fun v => ?_⟩
      rw [insertEntry, if_neg hlt, if_neg heq, hrest]
      rfl

namespace Checksum

/-- One string of an array stands between what the others make of it. -/
theorem exists_array (before after : List String) :
    ∃ front back, ∀ s : String, array (before ++ s :: after)
      = front ++ s.toList.flatMap escapeChar ++ back := by
  suffices h : ∃ front back, ∀ s : String,
      [','].intercalate ((before ++ s :: after).map fun s => escaped s.toList)
        = front ++ s.toList.flatMap escapeChar ++ back by
    obtain ⟨front, back, h⟩ := h
    refine ⟨'[' :: front, back ++ [']'], fun s => ?_⟩
    rw [array, h]
    simp only [List.append_assoc, List.cons_append]
  induction before with
  | nil =>
    cases after with
    | nil =>
      refine ⟨['"'], ['"'], fun s => ?_⟩
      rw [List.nil_append, List.map_cons, List.map_nil, List.intercalate_singleton]
      rfl
    | cons s' rest =>
      refine ⟨['"'], '"' :: ',' :: [','].intercalate ((s' :: rest).map fun s => escaped s.toList),
        fun s => ?_⟩
      rw [List.nil_append, List.map_cons, List.map_cons, List.intercalate_cons_cons, escaped]
      simp
  | cons s' rest ih =>
    obtain ⟨front, back, ih⟩ := ih
    refine ⟨escaped s'.toList ++ ',' :: front, back, fun s => ?_⟩
    obtain ⟨e, l, hl⟩ : ∃ e l, (rest ++ s :: after).map (fun s => escaped s.toList) = e :: l :=
      List.exists_cons_of_ne_nil (by simp)
    rw [List.cons_append, List.map_cons, hl, List.intercalate_cons_cons, ← hl, ih]
    simp

/-- **Under the checksum a value stands in one piece.** -/
theorem exists_message_insert (tags : TagSet) (k : String) :
    ∃ front back, ∀ v, message (tags.insert k v).toList = front ++ escapedOctets v ++ back := by
  obtain ⟨before, after, hplace⟩ := exists_insertEntry k tags.toList
  obtain ⟨front, back, harray⟩ :=
    exists_array (before.map fun e => e.1 ++ e.2) (after.map fun e => e.1 ++ e.2)
  refine ⟨encodeUtf8 front ++ escapedOctets k, encodeUtf8 back, fun v => ?_⟩
  have hlist : (tags.insert k v).toList = before ++ (k, v) :: after := hplace v
  have hline : encodeUtf8 ((k ++ v).toList.flatMap escapeChar)
      = escapedOctets k ++ escapedOctets v := escapedOctets_append k v
  rw [message, lines_toList, hlist, List.map_append, List.map_cons, harray, encodeUtf8_append,
    encodeUtf8_append, hline]
  simp only [List.append_assoc]

/-- Values that are near each other lead to different checksums. -/
theorem of_insert_ne_of_near {tags : TagSet} {k v v' : String} (hne : v ≠ v')
    (h : Near (escapedOctets v) (escapedOctets v')) :
    of (tags.insert k v) ≠ of (tags.insert k v') := by
  obtain ⟨front, back, hmessage⟩ := exists_message_insert tags k
  have hdiffer : front ++ escapedOctets v ++ back ≠ front ++ escapedOctets v' ++ back := by
    rw [Ne, List.append_cancel_right_eq, List.append_cancel_left_eq]
    exact fun heq => hne (escapedOctets_injective heq)
  intro hsame
  have hvalue := congrArg value hsame
  rw [of, of, ofEntries, ofEntries, hmessage, hmessage] at hvalue
  exact Crc32.checksum_ne_of_near (h.append front back) hdiffer hvalue

end Checksum

/-! ### Unsealing -/

namespace TagSet

/-- A checksum that is not that of the other tags is reported with theirs. -/
theorem unsealed_eq_mismatch {tags : TagSet} {v : String} {c : Checksum}
    (hv : tags.get? Tag.checksum = some v) (hc : Checksum.parse v = .ok c)
    (hne : Checksum.of tags.bare ≠ c) :
    tags.unsealed = .error (.integrity (.mismatch c.value (Checksum.of tags.bare).value)) := by
  have hlookup : tags.toList.lookup Tag.checksum = some v := hv
  have hbare : bareEntries (bareEntries tags.toList) = tags.bare.toList :=
    bareEntries_bareEntries tags.toList
  have hvalid : validateEntries (bareEntries tags.toList) c
      = .error (.integrity (.mismatch c.value (Checksum.of tags.bare).value)) := by
    rw [validateEntries, hbare]
    exact if_neg hne
  have hentries : unsealedEntries tags.toList
      = .error (.integrity (.mismatch c.value (Checksum.of tags.bare).value)) := by
    rw [unsealedEntries, hlookup]
    simp only [hc, hvalid, bind, Except.bind]
  rw [unsealed, hentries]
  rfl

theorem bare_insert {tags : TagSet} {k v : String} (hk : k ≠ Tag.checksum) :
    bare (tags.insert k v) = tags.bare.insert k v := by
  refine Table.ext_get? fun k' => ?_
  rw [get?_bare, Table.get?_insert, Table.get?_insert, get?_bare]
  by_cases hk' : k' = Tag.checksum
  · rw [if_pos hk', if_pos hk', if_neg fun h => hk (h.symm.trans hk')]
  · rw [if_neg hk', if_neg hk']

/-- **A short change is noticed.**  After a tag of a sealed set is given another
value that differs by a short change, unsealing reports a mismatch between the
checksum that was put under its tag and a different one, that of the tags as they
are now. -/
theorem short_change_mismatch {tags : TagSet} {k v v' : String} (hk : k ≠ Tag.checksum)
    (hv : tags.get? k = some v) (hne : v ≠ v') (hshort : ShortChange v v') :
    let advertised := Checksum.of tags.bare
    let computed := Checksum.of (tags.bare.insert k v')
    tags.sealed.get? Tag.checksum = some advertised.text
      ∧ unsealed (tags.sealed.insert k v')
        = .error (.integrity (.mismatch advertised.value computed.value))
      ∧ computed.value ≠ advertised.value := by
  intro advertised computed
  have hadvertised : tags.sealed.get? Tag.checksum = some advertised.text :=
    Table.get?_insert_self ..
  have hold : tags.bare.insert k v = tags.bare := by
    refine Table.ext_get? fun k' => ?_
    rw [Table.get?_insert]
    split
    · rename_i hk'
      rw [hk', get?_bare, if_neg hk, hv]
    · rfl
  have hdiffer : computed ≠ advertised := by
    have h : Checksum.of (tags.bare.insert k v) ≠ computed :=
      Checksum.of_insert_ne_of_near hne hshort.near
    rw [hold] at h
    exact h.symm
  have hbare : bare (tags.sealed.insert k v') = tags.bare.insert k v' := by
    rw [bare_insert hk, bare_sealed]
  refine ⟨hadvertised, ?_, fun h => hdiffer ?_⟩
  · have hget : (tags.sealed.insert k v').get? Tag.checksum = some advertised.text := by
      rw [Table.get?_insert_ne _ _ hk.symm, hadvertised]
    have hmismatch := unsealed_eq_mismatch hget (Checksum.parse_text advertised) (hbare ▸ hdiffer)
    rwa [hbare] at hmismatch
  · exact congrArg Checksum.mk h

/-- One control character for another, in a value that is sealed together with
others. -/
theorem short_change_mismatch_control :
    let tags : TagSet := (Table.empty.insert "note" "a\x01b").insert Tag.role "PROXY"
    let advertised := Checksum.of tags.bare
    let computed := Checksum.of (tags.bare.insert "note" "a\x1fb")
    "note" ≠ Tag.checksum ∧ tags.get? "note" = some "a\x01b" ∧ "a\x01b" ≠ "a\x1fb"
      ∧ ShortChange "a\x01b" "a\x1fb"
      ∧ tags.sealed.get? Tag.checksum = some advertised.text
      ∧ unsealed (tags.sealed.insert "note" "a\x1fb")
        = .error (.integrity (.mismatch advertised.value computed.value))
      ∧ computed.value ≠ advertised.value := by
  intro tags advertised computed
  have hget : tags.get? "note" = some "a\x01b" := by decide
  have hshort : ShortChange "a\x01b" "a\x1fb" :=
    @ShortChange.character "a" "b" '\x01' '\x1f' (by decide)
  exact ⟨by decide, hget, by decide, hshort,
    short_change_mismatch (by decide) hget (by decide) hshort⟩

end TagSet

end Rendezvous
