/-
Rendezvous/Proofs/Address.lean

Addresses read back from their text.

The text of an address is read back as that address (`parse?_text`), also when
other text follows it (`readV4_partsText`, `readV6_v6Text`).  Groups are read as
long as they come, so what has to be known of the text behind them is that no
group can start there (`EndsGroups`); two colons are such text, and so is nothing.
The run of zeros that is left out may be any run of two or more: of the longest
run only its place is used (`longestRun_spec`).  With a port, and for sixteen
octets a scope, the address is that of a socket (`SocketAddr.parse?_text`).
-/
import Rendezvous.Proofs.Numeral
import Rendezvous.Proofs.Uuid

namespace Rendezvous

/-! ### Words as octets -/

theorem wordOfOctets_octetsOfWord (w : UInt16) :
    wordOfOctets (UInt8.ofNat (w.toNat / 256)) (UInt8.ofNat (w.toNat % 256)) = w := by
  have hw := w.toNat_lt
  rw [wordOfOctets, UInt8.toNat_ofNat', UInt8.toNat_ofNat', Nat.mod_eq_of_lt (by omega),
    Nat.mod_eq_of_lt (by omega)]
  have hsplit : w.toNat / 256 * 256 + w.toNat % 256 = w.toNat := by omega
  rw [hsplit, UInt16.ofNat_toNat]

theorem octetsOfWord_wordOfOctets (a b : UInt8) : octetsOfWord (wordOfOctets a b) = [a, b] := by
  have ha := a.toNat_lt
  have hb := b.toNat_lt
  rw [octetsOfWord, wordOfOctets, UInt16.toNat_ofNat', Nat.mod_eq_of_lt (by omega)]
  have hhigh : (a.toNat * 256 + b.toNat) / 256 = a.toNat := by omega
  have hlow : (a.toNat * 256 + b.toNat) % 256 = b.toNat := by omega
  rw [hhigh, hlow, UInt8.ofNat_toNat, UInt8.ofNat_toNat]

/-- Octets of an even number are those of their words. -/
theorem flatMap_octetsOfWord_wordsOfOctets {l : List UInt8} (h : l.length % 2 = 0) :
    (wordsOfOctets l).flatMap octetsOfWord = l := by
  fun_induction wordsOfOctets l with
  | case1 hi lo rest ih =>
    simp only [List.length_cons] at h
    rw [List.flatMap_cons, ih (by omega), octetsOfWord_wordOfOctets]
    rfl
  | case2 l hshort =>
    rcases l with _ | ⟨a, _ | ⟨b, rest⟩⟩
    · rfl
    · cases h
    · exact absurd rfl (hshort a b rest)

theorem length_flatMap_octetsOfWord (ws : List UInt16) :
    (ws.flatMap octetsOfWord).length = 2 * ws.length := by
  induction ws with
  | nil => rfl
  | cons w ws ih =>
    rw [List.flatMap_cons, List.length_append, ih, List.length_cons]
    simp only [octetsOfWord, List.length_cons, List.length_nil]
    omega

theorem flatMap_octetsOfWord_replicate (n : Nat) :
    (List.replicate n 0).flatMap octetsOfWord = List.replicate (2 * n) 0 := by
  induction n with
  | zero => rfl
  | succ n ih =>
    rw [List.replicate_succ, List.flatMap_cons, ih, Nat.mul_succ, List.replicate_succ,
      List.replicate_succ]
    rfl

namespace Address

open Text

variable {rest : List Char}

/-! ### Four decimal parts -/

theorem readPart_toDigits (b : UInt8) (hrest : NoNumeral 10 rest) :
    readPart (Nat.toDigits 10 b.toNat ++ rest) = some (b, rest) := by
  have hb := b.toNat_lt
  have hread : readNumber 10 (some 3) false 256 (Nat.toDigits 10 b.toNat ++ rest)
      = some (b.toNat, rest) := by
    refine readNumber_toDigits (by decide) (by decide) hb ?_ hrest
    rintro _ ⟨⟩
    exact ⟨by decide, Nat.lt_trans hb (by decide)⟩
  rw [readPart, hread]
  exact congrArg (fun b => some (b, rest)) UInt8.ofNat_toNat

theorem toList_partsText (a b c d : UInt8) :
    (partsText [a, b, c, d]).toList = Nat.toDigits 10 a.toNat ++ '.' :: (Nat.toDigits 10 b.toNat
      ++ '.' :: (Nat.toDigits 10 c.toNat ++ '.' :: Nat.toDigits 10 d.toNat)) := by
  rw [partsText, String.toList_intercalate]
  simp only [List.map_cons, List.map_nil, List.intercalate_cons_cons, List.intercalate_singleton,
    Text.decimal, String.toList_ofList, List.append_assoc]
  rfl

theorem exists_parts : ∀ o : Octets 4, ∃ a b c d, o.toList = [a, b, c, d]
  | ⟨[a, b, c, d], _⟩ => ⟨a, b, c, d, rfl⟩

theorem readV4_partsText (o : Octets 4) (hrest : NoNumeral 10 rest) :
    readV4 ((partsText o.toList).toList ++ rest) = some (o, rest) := by
  obtain ⟨a, b, c, d, hparts⟩ := exists_parts o
  have hpoint : ∀ s, NoNumeral 10 ('.' :: s) := noNumeral_cons rfl
  rw [hparts, toList_partsText]
  simp only [List.append_assoc, List.cons_append]
  simp only [readV4, readPart_toDigits _ (hpoint _), readPart_toDigits d hrest, readChar,
    bind, Option.bind, if_true, ← hparts]

/-- The characters of decimal parts. -/
theorem mem_partsText {o : Octets 4} {c : Char} (h : c ∈ (partsText o.toList).toList) :
    (digit? 16 c).isSome ∨ c = '.' := by
  have hdigits : ∀ {n}, c ∈ Nat.toDigits 10 n → (digit? 16 c).isSome := fun hc => by
    obtain ⟨d, hd⟩ := Option.isSome_iff_exists.mp
      (isSome_digit?_of_mem_toDigits (by decide) (by decide) hc)
    rw [digit?_mono (by decide) hd]
    rfl
  obtain ⟨a, b, c', d, hparts⟩ := exists_parts o
  rw [hparts, toList_partsText] at h
  simp only [List.mem_append, List.mem_cons] at h
  rcases h with h | h | h | h | h | h | h
  · exact Or.inl (hdigits h)
  · exact Or.inr h
  · exact Or.inl (hdigits h)
  · exact Or.inr h
  · exact Or.inl (hdigits h)
  · exact Or.inr h
  · exact Or.inl (hdigits h)

/-- Nothing is read where there is no digit. -/
theorem readV4_eq_none_of_head {s : List Char} (h : NoNumeral 10 s) :
    readV4 s = none := by
  have hpart : readPart s = none := by
    rw [readPart, readNumber_eq_none h]
    rfl
  rw [readV4, hpart]
  rfl

theorem readChar_eq_none {c : Char} {s : List Char} (h : c ∉ s) : readChar c s = none := by
  cases s with
  | nil => rfl
  | cons c' s => rw [readChar, if_neg fun heq : c = c' => h (heq ▸ List.mem_cons_self)]

/-- Nor where there is no point. -/
theorem readV4_eq_none_of_point {s : List Char} (h : '.' ∉ s) : readV4 s = none := by
  rw [readV4, readPart]
  rcases hread : readNumber 10 (some 3) false 256 s with _ | ⟨n, rest⟩
  · rfl
  · -- the first part is there, but no point can follow it
    have hrest : readChar '.' rest = none :=
      readChar_eq_none fun hmem => h ((readNumber_suffix hread).subset hmem)
    simp only [bind, Option.bind, hrest]

/-! ### Groups -/

/-- What no group can be read from, with or without a colon before it. -/
structure EndsGroups (rest : List Char) : Prop where
  point : '.' ∉ rest
  digit : NoNumeral 16 rest
  colon : ∀ s, readChar ':' rest = some s → NoNumeral 16 s

theorem endsGroups_nil : EndsGroups [] := ⟨List.not_mem_nil, noNumeral_nil, nofun⟩

/-- Two colons end groups. -/
theorem endsGroups_colons {s : List Char} (h : '.' ∉ s) : EndsGroups (':' :: ':' :: s) := by
  refine ⟨by simp [h], noNumeral_cons rfl _, ?_⟩
  rintro _ ⟨⟩
  exact noNumeral_cons rfl s

/-- Groups, each after a colon. -/
def tailText (ws : List UInt16) : List Char := ws.flatMap fun w => ':' :: Nat.toDigits 16 w.toNat

variable {room : Nat} {first : Bool} {s s' : List Char} {ws : List UInt16}

theorem toList_groupsText (w : UInt16) (ws : List UInt16) :
    (groupsText (w :: ws)).toList = Nat.toDigits 16 w.toNat ++ tailText ws := by
  rw [groupsText, String.toList_intercalate]
  induction ws generalizing w with
  | nil =>
    simp only [List.map_cons, List.map_nil, List.intercalate_singleton, Text.hex,
      String.toList_ofList]
    exact (List.append_nil _).symm
  | cons w' ws ih =>
    have hih := ih w'
    simp only [List.map_cons] at hih ⊢
    rw [List.intercalate_cons_cons, hih, List.append_assoc, Text.hex, String.toList_ofList]
    rfl

theorem readGroups_nil (h : ∀ t, readColon first s = some t → NoNumeral 16 t) :
    readGroups room first s = (⟨[], false⟩, s) := by
  cases room with
  | zero => rfl
  | succ room =>
    have hparts : (readColon first s >>= readV4) = none := by
      cases hcolon : readColon first s with
      | none => rfl
      | some t => exact readV4_eq_none_of_head ((h t hcolon).mono (by decide))
    have hgroup : (readColon first s >>= readNumber 16 (some 4) true 65536) = none := by
      cases hcolon : readColon first s with
      | none => rfl
      | some t => exact readNumber_eq_none (h t hcolon)
    simp only [readGroups, hparts, hgroup, ite_self]

/-- A group is read, and those after it, unless it is the first of four decimal
parts. -/
theorem readGroups_group {w : UInt16} {more : Groups}
    (hs : readColon first s = some (Nat.toDigits 16 w.toNat ++ s'))
    (hparts : readV4 (Nat.toDigits 16 w.toNat ++ s') = none) (hs' : NoNumeral 16 s')
    (hmore : readGroups room false s' = (more, rest)) :
    readGroups (room + 1) first s = (⟨octetsOfWord w ++ more.octets, more.decimal⟩, rest) := by
  have hgroup : readNumber 16 (some 4) true 65536 (Nat.toDigits 16 w.toNat ++ s')
      = some (w.toNat, s') := by
    have hw := w.toNat_lt
    refine readNumber_toDigits (by decide) (by decide) hw ?_ hs'
    rintro _ ⟨⟩
    exact ⟨by decide, hw⟩
  simp only [readGroups, hs, bind, Option.bind, hparts, hgroup, hmore, ite_self,
    UInt16.ofNat_toNat]

/-- Decimal parts are read where there is room for two groups. -/
theorem readGroups_parts {a : Octets 4} (hs : readColon first s = some s')
    (hparts : readV4 s' = some (a, rest)) :
    readGroups (room + 2) first s = (⟨a.toList, true⟩, rest) := by
  have hroom : room + 1 ≠ 0 := Nat.succ_ne_zero room
  simp only [readGroups, hs, bind, Option.bind, hparts, if_neg hroom]

theorem noNumeral_tailText (hrest : EndsGroups rest) : NoNumeral 16 (tailText ws ++ rest) := by
  cases ws with
  | nil => exact hrest.digit
  | cons w ws => exact noNumeral_cons rfl _

/-- The characters of groups. -/
theorem mem_tailText {c : Char} (h : c ∈ tailText ws) : (digit? 16 c).isSome ∨ c = ':' := by
  obtain ⟨w, -, hw⟩ := List.mem_flatMap.mp h
  rcases List.mem_cons.mp hw with hcolon | hdigit
  · exact Or.inr hcolon
  · exact Or.inl (isSome_digit?_of_mem_toDigits (by decide) (by decide) hdigit)

theorem mem_groupsText {c : Char} (h : c ∈ (groupsText ws).toList) :
    (digit? 16 c).isSome ∨ c = ':' := by
  cases ws with
  | nil => cases h
  | cons w ws =>
    rw [toList_groupsText] at h
    rcases List.mem_append.mp h with hdigit | htail
    · exact Or.inl (isSome_digit?_of_mem_toDigits (by decide) (by decide) hdigit)
    · exact mem_tailText htail

theorem point_notMem_groupsText (ws : List UInt16) : '.' ∉ (groupsText ws).toList := by
  intro h
  rcases mem_groupsText h with hdigit | hcolon
  · cases hdigit
  · cases hcolon

theorem readGroups_cons {w : UInt16} (hrest : EndsGroups rest)
    (hs : readColon first s = some ((groupsText (w :: ws)).toList ++ rest))
    (hmore : readGroups room false (tailText ws ++ rest)
      = (⟨ws.flatMap octetsOfWord, false⟩, rest)) :
    readGroups (room + 1) first s = (⟨(w :: ws).flatMap octetsOfWord, false⟩, rest) := by
  have hpoint : '.' ∉ (groupsText (w :: ws)).toList ++ rest := by
    rw [List.mem_append, not_or]
    exact ⟨point_notMem_groupsText _, hrest.point⟩
  rw [toList_groupsText, List.append_assoc] at hs hpoint
  exact readGroups_group hs (readV4_eq_none_of_point hpoint) (noNumeral_tailText hrest) hmore

theorem readGroups_tailText (hrest : EndsGroups rest) (hroom : ws.length ≤ room) :
    readGroups room false (tailText ws ++ rest) = (⟨ws.flatMap octetsOfWord, false⟩, rest) := by
  induction ws generalizing room with
  | nil => exact readGroups_nil hrest.colon
  | cons w ws ih =>
    cases room with
    | zero => cases hroom
    | succ room =>
      refine readGroups_cons hrest ?_ (ih (Nat.le_of_succ_le_succ hroom))
      rw [toList_groupsText, tailText, List.flatMap_cons, ← tailText]
      rfl

/-- **Groups are read back**, if there is room for them. -/
theorem readGroups_groupsText (hrest : EndsGroups rest) (hroom : ws.length ≤ room) :
    readGroups room true ((groupsText ws).toList ++ rest)
      = (⟨ws.flatMap octetsOfWord, false⟩, rest) := by
  cases ws with
  | nil =>
    refine readGroups_nil ?_
    rintro _ ⟨⟩
    exact hrest.digit
  | cons w ws =>
    cases room with
    | zero => cases hroom
    | succ room =>
      exact readGroups_cons hrest rfl
        (readGroups_tailText hrest (Nat.le_of_succ_le_succ hroom))

/-! ### Runs of zeros -/

/-- The longest run is a run of zeros, and it is where it is said to be. -/
theorem longestRun_spec (i : Nat) (ws : List UInt16) :
    (longestRun i ws).2 = 0 ∨ ∃ before after,
      ws = before ++ (List.replicate (longestRun i ws).2 0 ++ after)
        ∧ (longestRun i ws).1 = i + before.length := by
  induction ws generalizing i with
  | nil => exact Or.inl rfl
  | cons w ws ih =>
    simp only [longestRun]
    split
    · -- the run is that at the front
      have hzeros : (w :: ws).takeWhile (· == 0) = List.replicate (zeroRun (w :: ws)) 0 := by
        refine List.eq_replicate_iff.mpr ⟨rfl, fun b hb => ?_⟩
        exact beq_iff_eq.mp (List.all_eq_true.mp List.all_takeWhile b hb)
      refine Or.inr ⟨[], (w :: ws).dropWhile (· == 0), ?_, rfl⟩
      rw [List.nil_append, ← hzeros, List.takeWhile_append_dropWhile]
    · rcases ih (i + 1) with hnone | ⟨before, after, hsplit, hplace⟩
      · exact Or.inl hnone
      · refine Or.inr ⟨w :: before, after, congrArg (List.cons w) hsplit, ?_⟩
        rw [hplace, List.length_cons]
        omega

/-! ### Sixteen octets -/

/-- The forms of the text of sixteen octets. -/
inductive V6Form (o : Octets 16) : String → Prop
  /-- An address of four octets, mapped. -/
  | mapped (a : Octets 4) (h : o.toList = List.replicate 10 0 ++ ([0xFF, 0xFF] ++ a.toList)) :
    V6Form o ("::ffff:" ++ partsText a.toList)
  /-- A run of zeros is left out. -/
  | compressed (before after : List UInt16) (count : Nat) (hcount : 2 ≤ count)
    (h : wordsOfOctets o.toList = before ++ (List.replicate count 0 ++ after)) :
    V6Form o (groupsText before ++ "::" ++ groupsText after)
  | full : V6Form o (groupsText (wordsOfOctets o.toList))

theorem v6Form (o : Octets 16) : V6Form o (v6Text o.toList) := by
  rw [v6Text]
  split
  · rename_i hmark
    have hlength : (o.toList.drop 12).length = 4 := by rw [List.length_drop, o.length_toList]
    refine V6Form.mapped ⟨o.toList.drop 12, hlength⟩ ?_
    rw [← List.append_assoc, ← hmark, List.take_append_drop]
  · -- the run is cut out where it is said to be
    rcases hrun : longestRun 0 (wordsOfOctets o.toList) with ⟨start, count⟩
    simp only [hrun]
    split
    · rename_i hcount
      rcases longestRun_spec 0 (wordsOfOctets o.toList) with
        hnone | ⟨before, after, hsplit, hplace⟩
      · rw [hrun] at hnone
        exact absurd hcount (by simp [show count = 0 from hnone])
      · rw [hrun] at hsplit hplace
        have hstart : start = before.length := by simpa using hplace
        have htake : (wordsOfOctets o.toList).take start = before := by
          rw [hsplit, hstart, List.take_left]
        have hdrop : (wordsOfOctets o.toList).drop (start + count) = after := by
          rw [hsplit, hstart, ← List.append_assoc]
          exact List.drop_left' (by simp)
        rw [htake, hdrop]
        exact V6Form.compressed before after count hcount hsplit
    · exact V6Form.full

theorem octets_wordsOfOctets (o : Octets 16) :
    (wordsOfOctets o.toList).flatMap octetsOfWord = o.toList :=
  flatMap_octetsOfWord_wordsOfOctets (by rw [o.length_toList])

theorem length_wordsOfOctets (o : Octets 16) : (wordsOfOctets o.toList).length = 8 := by
  have h := length_flatMap_octetsOfWord (wordsOfOctets o.toList)
  rw [octets_wordsOfOctets, o.length_toList] at h
  omega

theorem toList_mapped (a : Octets 4) : ("::ffff:" ++ partsText a.toList).toList
    = ':' :: ':' :: (Nat.toDigits 16 0xFFFF ++ ':' :: (partsText a.toList).toList) := by
  rw [String.toList_append]
  rfl

/-- Groups before two colons, and groups behind them. -/
theorem readV6_colons {o : Octets 16} {before after : List UInt8} {n : Nat} {decimal : Bool}
    (hbefore : readGroups 8 true s = (⟨before, false⟩, ':' :: ':' :: s'))
    (hafter : readGroups (7 - before.length / 2) true s' = (⟨after, decimal⟩, rest))
    (hoctets : o.toList = before ++ (List.replicate n 0 ++ after)) (hn : 0 < n) :
    readV6 s = some (o, rest) := by
  have hlength : before.length + (n + after.length) = 16 := by
    rw [← o.length_toList, hoctets, List.length_append, List.length_append, List.length_replicate]
  have hzeros : 16 - before.length - after.length = n := by omega
  have hshort : before.length ≠ 16 := by omega
  rw [readV6, hbefore]
  simp only [if_neg hshort, Bool.false_eq_true, if_false, readChar, if_true, bind, Option.bind,
    hafter, hzeros, List.append_assoc, ← hoctets, Octets.ofList?_toList]

/-- A mapped address: two colons, one group, and the decimal parts. -/
theorem readV6_mapped {o : Octets 16} {a : Octets 4} (hrest : EndsGroups rest)
    (h : o.toList = List.replicate 10 0 ++ ([0xFF, 0xFF] ++ a.toList)) :
    readV6 (("::ffff:" ++ partsText a.toList).toList ++ rest) = some (o, rest) := by
  have hparts : readGroups 6 false (':' :: ((partsText a.toList).toList ++ rest))
      = (⟨a.toList, true⟩, rest) :=
    readGroups_parts rfl (readV4_partsText a (hrest.digit.mono (by decide)))
  have hgroup : readGroups 7 true
      (Nat.toDigits 16 0xFFFF ++ ':' :: ((partsText a.toList).toList ++ rest))
      = (⟨[0xFF, 0xFF] ++ a.toList, true⟩, rest) :=
    readGroups_group (w := 0xFFFF) rfl (readV4_eq_none_of_head (noNumeral_cons rfl _))
      (noNumeral_cons rfl _) hparts
  -- no group stands before the colons
  have hcolons : ∀ t, readGroups 8 true (':' :: ':' :: t) = (⟨[], false⟩, ':' :: ':' :: t) := by
    intro t
    refine readGroups_nil ?_
    rintro _ ⟨⟩
    exact noNumeral_cons rfl _
  rw [toList_mapped]
  simp only [List.cons_append, List.append_assoc]
  exact readV6_colons (n := 10) (hcolons _) hgroup h (by decide)

/-- The run of zeros that is left out is put in again. -/
theorem readV6_compressed {o : Octets 16} {before after : List UInt16} {count : Nat}
    (hrest : EndsGroups rest) (hcount : 2 ≤ count)
    (h : wordsOfOctets o.toList = before ++ (List.replicate count 0 ++ after)) :
    readV6 ((groupsText before ++ "::" ++ groupsText after).toList ++ rest) = some (o, rest) := by
  have hlength : before.length + (count + after.length) = 8 := by
    rw [← length_wordsOfOctets o, h, List.length_append, List.length_append,
      List.length_replicate]
  have hcolons : EndsGroups (':' :: ':' :: ((groupsText after).toList ++ rest)) := by
    refine endsGroups_colons ?_
    rw [List.mem_append, not_or]
    exact ⟨point_notMem_groupsText _, hrest.point⟩
  have hbefore : readGroups 8 true ((groupsText before).toList ++ _)
      = (⟨before.flatMap octetsOfWord, false⟩, _) :=
    readGroups_groupsText hcolons (by omega)
  have hafter : readGroups (7 - (before.flatMap octetsOfWord).length / 2) true
      ((groupsText after).toList ++ rest) = (⟨after.flatMap octetsOfWord, false⟩, rest) := by
    -- two groups at least are left out, so there is room
    refine readGroups_groupsText hrest ?_
    rw [length_flatMap_octetsOfWord]
    omega
  have hwords := octets_wordsOfOctets o
  rw [h, List.flatMap_append, List.flatMap_append, flatMap_octetsOfWord_replicate] at hwords
  simp only [String.toList_append, List.append_assoc]
  exact readV6_colons hbefore hafter hwords.symm (by omega)

theorem readV6_full (o : Octets 16) (hrest : EndsGroups rest) :
    readV6 ((groupsText (wordsOfOctets o.toList)).toList ++ rest) = some (o, rest) := by
  have hread : readGroups 8 true ((groupsText (wordsOfOctets o.toList)).toList ++ rest)
      = (⟨(wordsOfOctets o.toList).flatMap octetsOfWord, false⟩, rest) :=
    readGroups_groupsText hrest (Nat.le_of_eq (length_wordsOfOctets o))
  rw [octets_wordsOfOctets] at hread
  rw [readV6, hread]
  simp only [o.length_toList, if_true, Octets.ofList?_toList]
  rfl

/-- **Sixteen octets are read back from their text.** -/
theorem readV6_v6Text (o : Octets 16) (hrest : EndsGroups rest) :
    readV6 ((v6Text o.toList).toList ++ rest) = some (o, rest) := by
  have hform := v6Form o
  generalize v6Text o.toList = text at hform ⊢
  cases hform with
  | mapped a h => exact readV6_mapped hrest h
  | compressed before after count hcount h => exact readV6_compressed hrest hcount h
  | full => exact readV6_full o hrest

/-- They are not taken for four octets. -/
theorem readV4_v6Text (o : Octets 16) (hrest : '.' ∉ rest) :
    readV4 ((v6Text o.toList).toList ++ rest) = none := by
  have hform := v6Form o
  generalize v6Text o.toList = text at hform ⊢
  cases hform with
  | mapped a h =>
    rw [toList_mapped]
    exact readV4_eq_none_of_head (noNumeral_cons rfl _)
  | compressed before after count hcount h =>
    refine readV4_eq_none_of_point ?_
    simp only [String.toList_append, List.mem_append, not_or]
    exact ⟨⟨⟨point_notMem_groupsText _, by decide⟩, point_notMem_groupsText _⟩, hrest⟩
  | full =>
    refine readV4_eq_none_of_point ?_
    rw [List.mem_append, not_or]
    exact ⟨point_notMem_groupsText _, hrest⟩

end Address

open Address

/-- The characters of the text of an address. -/
theorem IpAddr.mem_text {a : IpAddr} {c : Char} (h : c ∈ a.text.toList) :
    (Text.digit? 16 c).isSome ∨ c = ':' ∨ c = '.' := by
  rcases a with o | o
  · rcases mem_partsText (h : c ∈ (partsText o.toList).toList) with hdigit | hpoint
    · exact Or.inl hdigit
    · exact Or.inr (Or.inr hpoint)
  · have hform := v6Form o
    replace h : c ∈ (v6Text o.toList).toList := h
    generalize v6Text o.toList = text at hform h
    cases hform with
    | mapped a _ =>
      rw [toList_mapped] at h
      simp only [List.mem_cons, List.mem_append] at h
      rcases h with h | h | h | h | h
      · exact Or.inr (Or.inl h)
      · exact Or.inr (Or.inl h)
      · exact Or.inl (Text.isSome_digit?_of_mem_toDigits (by decide) (by decide) h)
      · exact Or.inr (Or.inl h)
      · exact (mem_partsText h).imp_right Or.inr
    | compressed before after _ _ _ =>
      simp only [String.toList_append, List.mem_append] at h
      rcases h with (h | h) | h
      · exact (mem_groupsText h).imp_right Or.inl
      · exact Or.inr (Or.inl (by simpa using h))
      · exact (mem_groupsText h).imp_right Or.inl
    | full => exact (mem_groupsText h).imp_right Or.inl

/-- **The text of an address is read back as that address.** -/
theorem IpAddr.parse?_text (a : IpAddr) : IpAddr.parse? a.text = some a := by
  rcases a with o | o
  · have hread : readV4 ((partsText o.toList).toList ++ []) = some (o, []) :=
      readV4_partsText o Text.noNumeral_nil
    rw [List.append_nil] at hread
    show ((((readV4 (partsText o.toList).toList).map _).or _).bind _) = _
    rw [hread]
    rfl
  · have hnot : readV4 ((v6Text o.toList).toList ++ []) = none := readV4_v6Text o List.not_mem_nil
    have hread : readV6 ((v6Text o.toList).toList ++ []) = some (o, []) :=
      readV6_v6Text o endsGroups_nil
    rw [List.append_nil] at hnot hread
    show ((((readV4 (v6Text o.toList).toList).map _).or
      ((readV6 (v6Text o.toList).toList).map _)).bind _) = _
    rw [hnot, hread]
    rfl

/-! ### Sockets -/

namespace Address

open Text

/-- A port with the colon before it. -/
def portText (p : UInt16) : List Char := ':' :: Nat.toDigits 10 p.toNat

theorem readPort_portText (p : UInt16) : readPort (portText p) = some p := by
  have hread : readNumber 10 none true 65536 (Nat.toDigits 10 p.toNat ++ [])
      = some (p.toNat, []) :=
    readNumber_toDigits (by decide) (by decide) p.toNat_lt nofun noNumeral_nil
  rw [List.append_nil] at hread
  simp only [portText, readPort, readChar, if_true, bind, Option.bind, hread, List.isEmpty_nil]
  exact congrArg some UInt16.ofNat_toNat

/-- A scope with the sign before it; the scope zero is not written. -/
def scopeText (scope : UInt32) : List Char :=
  if scope = 0 then [] else '%' :: Nat.toDigits 10 scope.toNat

/-- Either way the bracket ends the scope. -/
theorem readScope_scopeText (scope : UInt32) (s : List Char) :
    readScope (scopeText scope ++ ']' :: s) = some (scope, ']' :: s) := by
  rw [scopeText]
  split
  · rename_i hzero
    subst hzero
    rfl
  · have hread : readNumber 10 none true (Nat.pow 2 32)
        (Nat.toDigits 10 scope.toNat ++ ']' :: s) = some (scope.toNat, ']' :: s) :=
      readNumber_toDigits (by decide) (by decide) scope.toNat_lt nofun (noNumeral_cons rfl s)
    simp only [List.cons_append, readScope, readChar, if_true, bind, Option.bind, hread,
      UInt32.ofNat_toNat]

theorem point_notMem_toDigits (n : Nat) : '.' ∉ Nat.toDigits 10 n := fun hmem =>
  nomatch isSome_digit?_of_mem_toDigits (by decide) (by decide) hmem

/-- Neither a scope nor the bracket goes on with groups. -/
theorem endsGroups_scopeText (scope : UInt32) (p : UInt16) :
    EndsGroups (scopeText scope ++ ']' :: portText p) := by
  have hport : '.' ∉ ']' :: portText p := by simp [portText, point_notMem_toDigits]
  rw [scopeText]
  split
  · exact ⟨hport, noNumeral_cons rfl _, nofun⟩
  · refine ⟨?_, noNumeral_cons rfl _, nofun⟩
    rw [List.mem_append, not_or]
    exact ⟨by simp [point_notMem_toDigits], hport⟩

end Address

namespace SocketAddr

variable {a : SocketAddr}

theorem toList_text_v4 {o : Octets 4} (h : a.ip = .v4 o) :
    a.text.toList = (partsText o.toList).toList ++ portText a.port := by
  rw [text, h]
  simp only [IpAddr.text, Text.decimal, String.toList_append, String.toList_ofList]
  rfl

theorem toList_text_v6 {o : Octets 16} (h : a.ip = .v6 o) :
    a.text.toList
      = '[' :: ((v6Text o.toList).toList ++ (scopeText a.scope ++ ']' :: portText a.port)) := by
  rw [text, h, scopeText]
  simp only [IpAddr.text, Text.decimal, String.toList_append, String.toList_ofList]
  split <;> simp [portText]

/-- **The address of a socket is read back from its text**, if only addresses of
sixteen octets have a scope. -/
theorem parse?_text (h : a.scope = 0 ∨ ∃ o, a.ip = .v6 o) : parse? a.text = some a := by
  rcases a with ⟨o | o, port, scope⟩
  · obtain rfl : scope = 0 := h.resolve_right fun ⟨_, heq⟩ => nomatch heq
    have hread : readV4 ((partsText o.toList).toList ++ portText port) = some (o, portText port) :=
      readV4_partsText o (Text.noNumeral_cons rfl _)
    rw [parse?, toList_text_v4 rfl]
    simp only [hread, readPort_portText, bind, Option.bind, Option.or]
  · have hnot : ∀ s, readV4 ('[' :: s) = none := fun s =>
      readV4_eq_none_of_head (Text.noNumeral_cons rfl s)
    have hread := readV6_v6Text o (endsGroups_scopeText scope port)
    rw [parse?, toList_text_v6 rfl]
    simp only [hnot, hread, readScope_scopeText, readPort_portText, readChar, if_true, bind,
      Option.bind, Option.or]

end SocketAddr

end Rendezvous
