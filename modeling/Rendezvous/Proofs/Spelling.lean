/-
Rendezvous/Proofs/Spelling.lean

Which texts are checksums.

Eight characters are a checksum if every two of them spell an octet (`Spells`): two
hexadecimal digits in either case, or a plus sign and one digit.  The octets make up the
checksum from its low end, and there is nothing else to say of reading:

    parse s = .ok c  ↔  s spells four octets whose number is that of c      (`parse_eq_ok_iff`)

Writing spells the octets in lower-case digits, so a text that is read and written again is
the same but for its capitals and its plus signs (`Spells.lowered`).

A text may also be cut into pairs by octets, after a look at its length and its alphabet.
Since an octet of such a text is a character, no cut falls inside of one or behind the end,
and reading by cuts is reading (`parseCut_eq`).
-/
import Rendezvous.Proofs.Base64
import Rendezvous.Proofs.Numeral
import Rendezvous.Proofs.Seal

namespace Rendezvous

namespace Text

/-! ### Cuts -/

/-- The part of a text from one octet to another.  There is none if one of them is inside of
a character or behind the end. -/
def cut? (s : String) (i j : Nat) : Option String := do
  let start ← s.pos? ⟨i⟩
  let stop ← s.pos? ⟨j⟩
  (s.slice? start stop).map String.Slice.copy

theorem pos?_offset {s : String} (p : s.Pos) : s.pos? p.offset = some p := by
  have hvalid : p.offset.isValidForSlice s.toSlice = true := by
    simpa using p.isValid
  rw [String.pos?, String.Slice.pos?, dif_pos hvalid]
  rfl

/-- Where a text has a part, it is cut out. -/
theorem cut?_append (front part back : String) :
    cut? (front ++ part ++ back) front.utf8ByteSize (front.utf8ByteSize + part.utf8ByteSize)
      = some part := by
  obtain ⟨p, hp⟩ : ∃ p : (front ++ part ++ back).Pos, p.Splits front (part ++ back) :=
    ⟨_, String.Pos.splits_ofEqAppend String.append_assoc⟩
  obtain ⟨q, hq⟩ : ∃ q : (front ++ part ++ back).Pos, q.Splits (front ++ part) back :=
    ⟨_, String.Pos.splits_ofEqAppend rfl⟩
  obtain ⟨hle, hcopy⟩ := String.copy_slice_eq_iff_splits.mpr ⟨front, back, hp, hq⟩
  have hstart : (front ++ part ++ back).pos? ⟨front.utf8ByteSize⟩ = some p := by
    rw [← pos?_offset p, hp.offset_eq_rawEndPos]
    rfl
  have hstop : (front ++ part ++ back).pos? ⟨front.utf8ByteSize + part.utf8ByteSize⟩
      = some q := by
    rw [← pos?_offset q, hq.offset_eq_rawEndPos, ← String.utf8ByteSize_append]
    rfl
  simp only [cut?, hstart, hstop, bind, Option.bind_some, String.slice?, dif_pos hle,
    Option.map_some, hcopy]

-- the third octet is the second one of the accented letter
example : cut? "aéb" 0 2 = none := by decide +kernel

/-- A text of ASCII characters has as many octets. -/
theorem utf8ByteSize_ofList {l : List Char} (h : ∀ c ∈ l, c.toNat < 128) :
    (String.ofList l).utf8ByteSize = l.length := by
  induction l with
  | nil => rfl
  | cons c l ih =>
    obtain ⟨hc, hl⟩ := List.forall_mem_cons.mp h
    have hsize : c.utf8Size = 1 := by
      rw [← Char.ofNat_toNat c]
      exact utf8Size_ofNat hc
    have hsplit : String.ofList (c :: l) = String.singleton c ++ String.ofList l := by
      rw [String.singleton_eq_ofList, ← String.ofList_append]
      rfl
    rw [hsplit, String.utf8ByteSize_append, String.utf8ByteSize_singleton, hsize, ih hl,
      List.length_cons, Nat.add_comm]

end Text

namespace Checksum

open Text

variable {a b ch : Char} {o : UInt8} {c : Checksum} {l : List Char} {os : List UInt8} {s : String}

/-! ### Pairs that spell an octet -/

/-- Two characters that spell an octet: two digits, or a plus sign and one digit. -/
inductive Pair : Char → Char → UInt8 → Prop
  | digits {a b : Char} {m n : Nat} (ha : HexDigit a m) (hb : HexDigit b n) :
      Pair a b (UInt8.ofNat (16 * m + n))
  | plus {b : Char} {n : Nat} (hb : HexDigit b n) : Pair '+' b (UInt8.ofNat n)

theorem readNumeral_plus (b : Char) :
    readNumeral 16 256 ['+', b] = readDigits 16 256 0 [b] := rfl

theorem readNumeral_pair (ha : a ≠ '+') :
    readNumeral 16 256 [a, b] = readDigits 16 256 0 [a, b] := by
  rw [readNumeral]
  · exact List.cons_ne_nil _ _
  · intro h
    cases h
  · intro rest h
    exact ha (List.cons.inj h).1

theorem not_hexDigit_plus (n : Nat) : ¬ HexDigit '+' n := fun h =>
  h.all (P := fun c _ => c ≠ '+') (by decide) (by decide) rfl

theorem readDigits_one {m : Nat} :
    readDigits 16 256 0 [b] = .ok m ↔ HexDigit b m := by
  rw [readDigits_eq_ok_iff (by decide) (by decide), ← digit?_eq_some_iff]
  simp only [List.forall_mem_singleton, number, List.foldl_cons, List.foldl_nil, Nat.zero_mul,
    Nat.zero_add]
  constructor
  · rintro ⟨hb, rfl, -⟩
    obtain ⟨n, hn⟩ := Option.isSome_iff_exists.mp hb
    rw [hn, Option.getD_some]
  · intro hb
    have hlt := (digit?_eq_some_iff.mp hb).lt
    rw [hb]
    exact ⟨rfl, rfl, by omega⟩

theorem readDigits_two {k : Nat} :
    readDigits 16 256 0 [a, b] = .ok k
      ↔ ∃ m n, HexDigit a m ∧ HexDigit b n ∧ k = 16 * m + n := by
  rw [readDigits_eq_ok_iff (by decide) (by decide)]
  simp only [← digit?_eq_some_iff]
  constructor
  · rintro ⟨hdigits, rfl, -⟩
    obtain ⟨m, hm⟩ := Option.isSome_iff_exists.mp (hdigits a (by simp))
    obtain ⟨n, hn⟩ := Option.isSome_iff_exists.mp (hdigits b (by simp))
    refine ⟨m, n, hm, hn, ?_⟩
    simp only [number, List.foldl_cons, List.foldl_nil, hm, hn, Option.getD_some]
    omega
  · rintro ⟨m, n, hm, hn, rfl⟩
    have hmlt := (digit?_eq_some_iff.mp hm).lt
    have hnlt := (digit?_eq_some_iff.mp hn).lt
    refine ⟨by simp [hm, hn], ?_, by omega⟩
    simp only [number, List.foldl_cons, List.foldl_nil, hm, hn, Option.getD_some]
    omega

/-- **Two characters are read as an octet exactly if they spell it.** -/
theorem octet?_eq_some_iff : octet? a b = some o ↔ Pair a b o := by
  have hread : octet? a b = some o
      ↔ ∃ k, readNumeral 16 256 [a, b] = .ok k ∧ UInt8.ofNat k = o := by
    rw [octet?, Option.map_eq_some_iff]
    refine exists_congr fun k => and_congr_left fun _ => ?_
    cases readNumeral 16 256 [a, b] <;> simp [Except.toOption]
  rw [hread]
  -- no digit is a plus sign, so that the first character tells the two forms apart
  by_cases ha : a = '+'
  · subst ha
    simp only [readNumeral_plus, readDigits_one]
    constructor
    · rintro ⟨k, hb, rfl⟩
      exact .plus hb
    · intro h
      cases h with
      | digits ha hb => exact absurd ha (not_hexDigit_plus _)
      | plus hb => exact ⟨_, hb, rfl⟩
  · simp only [readNumeral_pair ha, readDigits_two]
    constructor
    · rintro ⟨k, ⟨m, n, hm, hn, rfl⟩, rfl⟩
      exact .digits hm hn
    · intro h
      cases h with
      | digits ha hb => exact ⟨_, ⟨_, _, ha, hb, rfl⟩, rfl⟩
      | plus hb => exact absurd rfl ha

/-! ### Texts that spell octets -/

/-- A text that spells octets, two characters for each. -/
inductive Spells : List Char → List UInt8 → Prop
  | nil : Spells [] []
  | cons {a b : Char} {o : UInt8} {l : List Char} {os : List UInt8} (h : Pair a b o)
    (hrest : Spells l os) : Spells (a :: b :: l) (o :: os)

/-- A character as it is written: capitals become small, and a plus sign a zero. -/
def lowered (ch : Char) : Char := if ch = '+' then '0' else ch.toLower

/-- The octets of a number, the least significant first, make up the number. -/
def littleEndian : List UInt8 → Nat
  | [] => 0
  | o :: os => o.toNat + 256 * littleEndian os

theorem Pair.isAscii (h : Pair a b o) : a.toNat < 128 ∧ b.toNat < 128 := by
  cases h with
  | digits ha hb => exact ⟨ha.isAscii, hb.isAscii⟩
  | plus hb => exact ⟨by decide, hb.isAscii⟩

theorem lowered_hexDigit {n : Nat} (h : HexDigit ch n) : lowered ch = digitChar n :=
  h.all (P := fun ch n => lowered ch = digitChar n) (by decide) (by decide)

/-- An octet is written with the digits of its pair. -/
theorem Pair.lowered (h : Pair a b o) :
    [Checksum.lowered a, Checksum.lowered b] = hexPadded 2 o.toNat := by
  rw [hexPadded_two]
  cases h with
  | @digits a b m n ha hb =>
    have hm := ha.lt
    have hn := hb.lt
    have hdiv : (16 * m + n) / 16 = m := by omega
    have hmod : (16 * m + n) % 16 = n := by omega
    rw [lowered_hexDigit ha, lowered_hexDigit hb, UInt8.toNat_ofNat', Nat.mod_eq_of_lt (by omega),
      hdiv, hmod]
  | @plus b n hb =>
    have hn := hb.lt
    rw [lowered_hexDigit hb, UInt8.toNat_ofNat', Nat.mod_eq_of_lt (by omega),
      Nat.div_eq_of_lt hn, Nat.mod_eq_of_lt hn]
    rfl

namespace Spells

theorem length (h : Spells l os) : l.length = 2 * os.length := by
  induction h with
  | nil => rfl
  | cons h hrest ih =>
    rw [List.length_cons, List.length_cons, List.length_cons, ih]
    omega

theorem isAscii (h : Spells l os) : ∀ ch ∈ l, ch.toNat < 128 := by
  induction h with
  | nil => exact nofun
  | cons h hrest ih =>
    obtain ⟨ha, hb⟩ := h.isAscii
    exact List.forall_mem_cons.mpr ⟨ha, List.forall_mem_cons.mpr ⟨hb, ih⟩⟩

/-- **What is read and written again** is the same but for capitals and plus signs. -/
theorem lowered (h : Spells l os) :
    l.map Checksum.lowered = os.flatMap fun o => hexPadded 2 o.toNat := by
  induction h with
  | nil => rfl
  | cons h hrest ih =>
    rw [List.flatMap_cons, ← h.lowered, ← ih]
    rfl

end Spells

/-! ### Checksums -/

/-- Octets of one number that are as many are the same. -/
theorem littleEndian_injective {os os' : List UInt8} (hlength : os.length = os'.length)
    (h : littleEndian os = littleEndian os') : os = os' := by
  induction os generalizing os' with
  | nil => exact (List.length_eq_zero_iff.mp hlength.symm).symm
  | cons o os ih =>
    rcases os' with _ | ⟨o', os'⟩
    · cases hlength
    · -- the first octet is the remainder by 256, the others make up the quotient
      have ho := o.toNat_lt
      have ho' := o'.toNat_lt
      rw [littleEndian, littleEndian] at h
      rw [UInt8.toNat_inj.mp (by omega : o.toNat = o'.toNat),
        ih (Nat.succ.inj hlength) (by omega)]

/-- The octets of a checksum make up its number. -/
theorem littleEndian_octets (c : Checksum) : littleEndian c.octets = c.value.toNat := by
  have hlt := c.value.toNat_lt
  simp only [octets, littleEndian, UInt32.toNat_toUInt8, UInt32.toNat_shiftRight,
    UInt32.reduceToNat, Nat.reduceMod, Nat.shiftRight_eq_div_pow]
  omega

/-- Four octets are those of the checksum that they make up. -/
theorem octets_ofOctets (w x y z : UInt8) : (ofOctets w x y z).octets = [w, x, y, z] := by
  have hlt : littleEndian [w, x, y, z] < UInt32.size := by
    have hw := w.toNat_lt
    have hx := x.toNat_lt
    have hy := y.toNat_lt
    have hz := z.toNat_lt
    simp only [littleEndian, UInt32.size]
    omega
  -- some word has the number of the octets, hence has these octets, hence is made of them
  obtain ⟨v, hv⟩ : ∃ v : UInt32, v.toNat = littleEndian [w, x, y, z] :=
    ⟨UInt32.ofNat _, UInt32.toNat_ofNat_of_lt hlt⟩
  have hoctets : octets ⟨v⟩ = [w, x, y, z] :=
    littleEndian_injective rfl ((littleEndian_octets ⟨v⟩).trans hv)
  obtain ⟨rfl, rfl, rfl, rfl⟩ : v.toUInt8 = w ∧ (v >>> 8).toUInt8 = x
      ∧ (v >>> 16).toUInt8 = y ∧ (v >>> 24).toUInt8 = z := by simpa [octets] using hoctets
  rw [ofOctets_of_word]
  rfl

theorem text_toList (c : Checksum) :
    c.text.toList = c.octets.flatMap fun o => hexPadded 2 o.toNat := by
  rw [text, String.toList_ofList]

theorem small_of_mem_text (h : ch ∈ c.text.toList) : ch ∈ "0123456789abcdef".toList := by
  rw [text_toList] at h
  obtain ⟨o, -, hch⟩ := List.mem_flatMap.mp h
  obtain ⟨d, hd, rfl⟩ := mem_hexPadded_two hch
  have hall : ∀ d < 16, digitChar d ∈ "0123456789abcdef".toList := by decide
  exact hall d hd

/-- **A text is read as the checksum whose octets it spells.** -/
theorem ofText?_eq_some_iff : ofText? s = some c ↔ Spells s.toList c.octets := by
  rw [ofText?]
  constructor
  · intro h
    split at h
    · rename_i heq
      simp only [bind, Option.bind_eq_some_iff, octet?_eq_some_iff] at h
      obtain ⟨w, hw, x, hx, y, hy, z, hz, h⟩ := h
      cases h
      rw [heq, octets_ofOctets]
      exact .cons hw (.cons hx (.cons hy (.cons hz .nil)))
    · cases h
  · intro h
    obtain ⟨v⟩ := c
    rw [octets] at h
    generalize hl : s.toList = l at h
    cases h with | cons hw h => cases h with | cons hx h => cases h with | cons hy h =>
    cases h with | cons hz h => cases h with | nil =>
    simp only [octet?_eq_some_iff.mpr hw, octet?_eq_some_iff.mpr hx, octet?_eq_some_iff.mpr hy,
      octet?_eq_some_iff.mpr hz, bind, Option.bind_some]
    exact congrArg some (ofOctets_of_word v)

example : ofText? "+a+b0C+d" = some ⟨0x0d0c0b0a⟩ := by decide

theorem parse_eq_ok_iff : parse s = .ok c ↔ Spells s.toList c.octets := by
  rw [← ofText?_eq_some_iff, parse]
  cases ofText? s <;> simp

/-- Every other text is malformed, and the fault names it. -/
theorem parse_eq_ok_or (s : String) :
    (∃ c, parse s = .ok c) ∨ parse s = .error (.integrity (.malformedChecksum s)) := by
  rw [parse]
  cases ofText? s with
  | none => exact Or.inr rfl
  | some c => exact Or.inl ⟨c, rfl⟩

/-! ### Reading by cuts -/

/-- The octet that a text of two characters spells. -/
def octetOf? (pair : String) : Option UInt8 :=
  (readNumeral 16 256 pair.toList).toOption.map UInt8.ofNat

/-- Cut `n` pairs out of a text, from the pair with the number `i` on, and read them until one
spells no octet.  There is nothing if a cut fails. -/
def octetsFrom (s : String) : Nat → Nat → Option (Option (List UInt8))
  | _, 0 => some (some [])
  | i, n + 1 => (cut? s (2 * i) (2 * i + 2)).bind fun pair =>
    match octetOf? pair with
    | none => some none
    | some o => (octetsFrom s (i + 1) n).map fun os => os.map (o :: ·)

/-- A text has no character beyond ASCII. -/
def isAsciiText (s : String) : Bool := s.toList.all fun ch => ch.toNat < 128

theorem isAsciiText_iff : isAsciiText s ↔ ∀ ch ∈ s.toList, ch.toNat < 128 := by
  rw [isAsciiText, List.all_eq_true]
  simp only [decide_eq_true_eq]

/-- Read a tag value by cuts, if it has eight octets and no character beyond ASCII. -/
def parseCut (s : String) : Option (Except Error Checksum) :=
  if s.utf8ByteSize = 8 ∧ isAsciiText s then
    (octetsFrom s 0 4).map fun
      | some [w, x, y, z] => .ok (ofOctets w x y z)
      | _ => .error (.integrity (.malformedChecksum s))
  else some (.error (.integrity (.malformedChecksum s)))

/-- The cuts of a text of ASCII characters fall between its characters. -/
theorem cut?_pair {front back : List Char} {i : Nat}
    (hascii : ∀ ch ∈ front ++ a :: b :: back, ch.toNat < 128)
    (hs : s.toList = front ++ a :: b :: back) (hfront : front.length = 2 * i) :
    cut? s (2 * i) (2 * i + 2) = some (String.ofList [a, b]) := by
  obtain ⟨hbefore, hrest⟩ := List.forall_mem_append.mp hascii
  obtain ⟨ha, hrest⟩ := List.forall_mem_cons.mp hrest
  obtain ⟨hb, -⟩ := List.forall_mem_cons.mp hrest
  have hpair : ∀ ch ∈ [a, b], ch.toNat < 128 := by simp [ha, hb]
  have hsplit : s = String.ofList front ++ String.ofList [a, b] ++ String.ofList back := by
    rw [← String.ofList_append, ← String.ofList_append, ← String.toList_inj, hs,
      String.toList_ofList, List.append_assoc]
    rfl
  have hcut := cut?_append (String.ofList front) (String.ofList [a, b]) (String.ofList back)
  rw [← hsplit, utf8ByteSize_ofList hbefore, utf8ByteSize_ofList hpair, hfront] at hcut
  exact hcut

/-- **No cut fails,** and what is cut out is what the characters spell. -/
theorem octetsFrom_eq (front : List Char) {i n : Nat} (hascii : ∀ ch ∈ front ++ l, ch.toNat < 128)
    (hs : s.toList = front ++ l) (hfront : front.length = 2 * i) (hl : l.length = 2 * n) :
    ∃ r, octetsFrom s i n = some r ∧ ∀ os, r = some os ↔ Spells l os := by
  induction n generalizing front l i with
  | zero =>
    obtain rfl := List.length_eq_zero_iff.mp hl
    refine ⟨some [], rfl, fun os => ?_⟩
    constructor
    · rintro ⟨⟩
      exact .nil
    · intro h
      cases h
      rfl
  | succ n ih =>
    rcases l with _ | ⟨a, _ | ⟨b, l⟩⟩
    · cases hl
    · simp only [List.length_cons, List.length_nil] at hl
      omega
    · have hnext : front ++ a :: b :: l = (front ++ [a, b]) ++ l := by simp
      have hoctet : octetOf? (String.ofList [a, b]) = octet? a b := by
        rw [octetOf?, String.toList_ofList, octet?]
      obtain ⟨r, hr, hspells⟩ := ih (front ++ [a, b]) (hnext ▸ hascii)
        (hs.trans hnext) (i := i + 1) (by simp [hfront, Nat.mul_add])
        (by simp only [List.length_cons] at hl; omega)
      rw [octetsFrom, cut?_pair hascii hs hfront, Option.bind_some, hoctet]
      -- after a pair that spells no octet nothing more is cut
      rcases ho : octet? a b with _ | o
      · refine ⟨none, rfl, fun os => iff_of_false (Option.some_ne_none os).symm fun h => ?_⟩
        cases h with
        | cons hpair hrest =>
          rw [octet?_eq_some_iff.mpr hpair] at ho
          cases ho
      · refine ⟨r.map (o :: ·), congrArg (Option.map _) hr, fun os => ?_⟩
        constructor
        · intro h
          obtain ⟨os', hos', rfl⟩ := Option.map_eq_some_iff.mp h
          exact .cons (octet?_eq_some_iff.mp ho) ((hspells os').mp hos')
        · intro h
          cases h with
          | cons hpair hrest =>
            rw [octet?_eq_some_iff.mpr hpair] at ho
            cases ho
            rw [(hspells _).mpr hrest, Option.map_some]

/-- **Reading by cuts is reading,** so no cut ever fails. -/
theorem parseCut_eq (s : String) : parseCut s = some (parse s) := by
  by_cases h : s.utf8ByteSize = 8 ∧ isAsciiText s
  · have hascii := isAsciiText_iff.mp h.2
    have hlength : s.toList.length = 2 * 4 := by
      rw [← utf8ByteSize_ofList hascii, String.ofList_toList]
      exact h.1
    obtain ⟨r, hr, hspells⟩ := octetsFrom_eq [] (i := 0) hascii rfl rfl hlength
    rw [parseCut, if_pos h, hr, Option.map_some]
    congr 1
    rcases r with _ | os
    · refine ((parse_eq_ok_or s).resolve_left ?_).symm
      rintro ⟨c, hc⟩
      exact nomatch (hspells _).mpr (parse_eq_ok_iff.mp hc)
    · have hos := (hspells os).mp rfl
      have hfour : 2 * os.length = 2 * 4 := hos.length.symm.trans hlength
      obtain ⟨w, x, y, z, rfl⟩ :=
        List.length_eq_four.mp (Nat.mul_left_cancel Nat.zero_lt_two hfour)
      exact (parse_eq_ok_iff.mpr (by rwa [octets_ofOctets])).symm
  · -- whatever spells octets would have passed the look at its length and alphabet
    rw [parseCut, if_neg h]
    congr 1
    refine ((parse_eq_ok_or s).resolve_left ?_).symm
    rintro ⟨c, hc⟩
    have hspells := parse_eq_ok_iff.mp hc
    refine h ⟨?_, isAsciiText_iff.mpr hspells.isAscii⟩
    rw [← String.ofList_toList (s := s), utf8ByteSize_ofList hspells.isAscii, hspells.length]
    rfl

/-- **Exactly the texts that spell four octets are checksums.**

A checksum is written in eight small digits, which spell its octets from the least
significant one on, and read back from them.  A text is read as a checksum exactly if its
characters, two by two, spell four octets, and these make up its number from the low end.
Such a text has eight characters, all of them ASCII, and written again it is the same with
small letters and with a zero in place of each plus sign.  Every other text is malformed, and
the fault names it.  Cutting a text by octets comes to the same, and no cut ever fails. -/
theorem parse_exact :
    (∀ c : Checksum, parse c.text = .ok c
      ∧ (∀ ch ∈ c.text.toList, ch ∈ "0123456789abcdef".toList)
      ∧ ∃ os, os.length = 4 ∧ Spells c.text.toList os ∧ littleEndian os = c.value.toNat)
    ∧ (∀ s, (∃ c, parse s = .ok c) ↔ ∃ os, os.length = 4 ∧ Spells s.toList os)
    ∧ (∀ s c, parse s = .ok c →
      (∃ os, os.length = 4 ∧ Spells s.toList os ∧ littleEndian os = c.value.toNat)
      ∧ s.toList.length = 8 ∧ (∀ ch ∈ s.toList, ch.toNat < 128)
      ∧ c.text = String.ofList (s.toList.map lowered))
    ∧ (∀ s, (∀ c, parse s ≠ .ok c) → parse s = .error (.integrity (.malformedChecksum s)))
    ∧ ∀ s, parseCut s = some (parse s) := by
  refine ⟨fun c => ⟨parse_text c, fun ch => small_of_mem_text, c.octets, rfl, ?_,
    littleEndian_octets c⟩, fun s => ?_, fun s c hc => ?_, fun s hnone => ?_, parseCut_eq⟩
  · exact parse_eq_ok_iff.mp (parse_text c)
  · constructor
    · rintro ⟨c, hc⟩
      exact ⟨c.octets, rfl, parse_eq_ok_iff.mp hc⟩
    · rintro ⟨os, hfour, hos⟩
      obtain ⟨w, x, y, z, rfl⟩ := List.length_eq_four.mp hfour
      exact ⟨ofOctets w x y z, parse_eq_ok_iff.mpr (by rwa [octets_ofOctets])⟩
  · have hspells := parse_eq_ok_iff.mp hc
    refine ⟨⟨c.octets, rfl, hspells, littleEndian_octets c⟩, hspells.length, hspells.isAscii, ?_⟩
    rw [← String.toList_inj, text_toList, String.toList_ofList, hspells.lowered]
  · exact (parse_eq_ok_or s).resolve_left fun ⟨c, hc⟩ => hnone c hc

end Checksum

end Rendezvous
