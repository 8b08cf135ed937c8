/-
Rendezvous/Proofs/Tree.lean

Trees on the wire.

A tree that has a text (`Tree.IsPlain`) is read back from it (`read_chars`), so
what a decoder makes of the text is what it makes of the tree (`decode_chars`).

Writing puts no blanks, so each word of a text takes one step of the cutter, and
a value needs no more steps of the reader than twice the number of its words.
Both are said at once (`Tree.Spelt`) and shown by one induction over the tree.
What follows a value matters for numbers only, which end where a mark stands.
-/
import Rendezvous.Proofs.Json

namespace Rendezvous.Json

open Text

variable {l rest : List UInt8} {n : Nat}

/-! ### Numbers -/

/-- The octets of a decimal numeral. -/
def digits (n : Nat) : List UInt8 := encodeUtf8 (Nat.toDigits 10 n)

theorem digits_of_lt (h : n < 10) : digits n = [UInt8.ofNat (48 + n)] := by
  have hall : ∀ n < 10, digits n = [UInt8.ofNat (48 + n)] := by decide
  exact hall n h

theorem digits_of_le (h : 10 ≤ n) : digits n = digits (n / 10) ++ digits (n % 10) := by
  rw [digits, Nat.toDigits_of_base_le (by decide) h, digits, digits,
    Nat.toDigits_of_lt_base (Nat.mod_lt n (by decide)), encodeUtf8, List.flatMap_append]
  rfl

theorem digits_ne_nil : digits n ≠ [] := by
  rcases Nat.lt_or_ge n 10 with h | h
  · rw [digits_of_lt h]
    nofun
  · rw [digits_of_le h, digits_of_lt (Nat.mod_lt n (by decide))]
    simp

theorem isDigit_of_mem_digits {b : UInt8} (h : b ∈ digits n) : isDigit b := by
  have hall : ∀ n < 10, isDigit (UInt8.ofNat (48 + n)) := by decide
  induction n using Nat.strongRecOn with
  | ind n ih =>
    rcases Nat.lt_or_ge n 10 with hlt | hge
    · rw [digits_of_lt hlt] at h
      rw [List.mem_singleton.mp h]
      exact hall n hlt
    · rw [digits_of_le hge] at h
      rcases List.mem_append.mp h with hfront | hlast
      · exact ih _ (by omega) hfront
      · exact ih _ (by omega) hlast

/-- Only the numeral of zero begins with a zero. -/
theorem eq_zero_of_head?_digits (h : (digits n).head? = some 48) : n = 0 := by
  have hall : ∀ n < 10, (digits n).head? = some 48 → n = 0 := by decide
  induction n using Nat.strongRecOn with
  | ind n ih =>
    rcases Nat.lt_or_ge n 10 with hlt | hge
    · exact hall n hlt h
    · rw [digits_of_le hge] at h
      rcases hfront : digits (n / 10) with _ | ⟨b, l⟩
      · exact absurd hfront digits_ne_nil
      · rw [hfront] at h
        have hzero := ih (n / 10) (by omega) (by rw [hfront]; exact h)
        omega

theorem fill_append {a m : Nat} {l r : List UInt8} (h : fill a l = (m, [])) :
    fill a (l ++ r) = fill m r := by
  induction l generalizing a with
  | nil =>
    obtain ⟨rfl, -⟩ := Prod.mk.inj h
    rfl
  | cons b l ih =>
    rw [fill] at h
    rw [List.cons_append, fill]
    split at h
    · rename_i hfits
      rw [if_pos hfits]
      exact ih h
    · cases h

theorem digit_sub (h : n < 10) : (UInt8.ofNat (48 + n)).toNat - 48 = n := by
  rw [UInt8.toNat_ofNat', Nat.mod_eq_of_lt (by omega)]
  omega

/-- A numeral that fits one word fills it with its number. -/
theorem fill_digits (h : n < Nat.pow 2 64) : fill 0 (digits n) = (n, []) := by
  induction n using Nat.strongRecOn with
  | ind n ih =>
    rcases Nat.lt_or_ge n 10 with hlt | hge
    · rw [digits_of_lt hlt, fill]
      simp only [digit_sub hlt, Nat.zero_mul, Nat.zero_add]
      rw [if_pos h, fill]
    · have hlast : n % 10 < 10 := Nat.mod_lt n (by decide)
      have hwhole : n / 10 * 10 + n % 10 = n := by omega
      rw [digits_of_le hge, fill_append (ih (n / 10) (by omega) (by omega)), digits_of_lt hlast,
        fill]
      simp only [digit_sub hlast, hwhole]
      rw [if_pos h, fill]

theorem digitsValue_digits : digitsValue (digits n) = n := by
  induction n using Nat.strongRecOn with
  | ind n ih =>
    rcases Nat.lt_or_ge n 10 with hlt | hge
    · rw [digits_of_lt hlt]
      show 0 * 10 + ((UInt8.ofNat (48 + n)).toNat - 48) = n
      rw [digit_sub hlt]
      omega
    · have hlast : n % 10 < 10 := Nat.mod_lt n (by decide)
      rw [digits_of_le hge, digitsValue, List.foldl_append]
      show (digits (n % 10)).foldl _ (digitsValue (digits (n / 10))) = n
      rw [ih (n / 10) (by omega), digits_of_lt hlast]
      show n / 10 * 10 + ((UInt8.ofNat (48 + n % 10)).toNat - 48) = n
      rw [digit_sub hlast]
      omega

/-- Rounding to a double at most doubles a number. -/
theorem nearestDouble_le (n : Nat) : nearestDouble n ≤ 2 * n := by
  rcases Nat.eq_zero_or_pos n with rfl | hpos
  · decide
  · have hunit : Nat.pow 2 (Nat.log2 n - 52) ≤ n :=
      Nat.le_trans (Nat.pow_le_pow_right (by decide) (Nat.sub_le ..))
        (Nat.log2_self_le (Nat.pos_iff_ne_zero.mp hpos))
    have hdiv : n / Nat.pow 2 (Nat.log2 n - 52) * Nat.pow 2 (Nat.log2 n - 52) ≤ n :=
      Nat.div_mul_le_self ..
    rw [nearestDouble]
    split
    · rw [Nat.succ_mul]
      omega
    · omega

/-- A number of one word is no infinity. -/
theorem isHuge_ofDigits (h : n < Nat.pow 2 64) :
    (Magnitude.ofDigits (digits n) [] 0).isHuge = false := by
  have hone : nearestDouble (Nat.pow 10 (0 : Int).toNat) = 1 := by decide
  have hinf : 2 * Nat.pow 2 64 ≤ infinity := by decide +kernel
  have hnear := nearestDouble_le n
  have hmagnitude : Magnitude.ofDigits (digits n) [] 0 = ⟨n, 0⟩ := by
    rw [Magnitude.ofDigits, fill_digits h]
    rfl
  rw [hmagnitude, Magnitude.isHuge]
  split
  · rfl
  · dsimp only
    rw [if_neg (by decide), hone, Nat.mul_one]
    exact decide_eq_false (by omega)

/-- What may follow a number: nothing, or a mark that ends it. -/
def Ends (l : List UInt8) : Prop := ∀ b ∈ l.head?, b = 44 ∨ b = 93 ∨ b = 125

theorem readUnsigned_digits {negative : Bool} (hn : n < Nat.pow 2 64)
    (hneg : negative = true → n ≠ 0) (h : Ends rest) :
    readUnsigned negative (digits n ++ rest)
      = some (.int (if negative then -(n : Int) else n), rest) := by
  have hdigits : ∀ b ∈ digits n, isDigit b := fun b => isDigit_of_mem_digits
  have hrest : rest.takeWhile isDigit = [] ∧ rest.dropWhile isDigit = rest
      ∧ readFraction rest = some (none, rest) ∧ readExponent rest = some (none, rest) := by
    cases rest with
    | nil => exact ⟨rfl, rfl, rfl, rfl⟩
    | cons b rest =>
      rcases h b rfl with rfl | rfl | rfl <;> exact ⟨rfl, rfl, rfl, rfl⟩
  obtain ⟨htake, hdrop, hfraction, hexponent⟩ := hrest
  have hcut : takeDigits (digits n ++ rest) = (digits n, rest) := by
    rw [takeDigits, List.takeWhile_append_of_pos hdigits, List.dropWhile_append_of_pos hdigits,
      htake, hdrop, List.append_nil]
  have hwhole : ¬((digits n).isEmpty = true
      ∨ (digits n).head? = some 48 ∧ 1 < (digits n).length) := by
    rintro (hempty | ⟨hzero, hlong⟩)
    · exact digits_ne_nil (List.isEmpty_iff.mp hempty)
    · rw [eq_zero_of_head?_digits hzero] at hlong
      revert hlong
      decide
  have hsign : ¬((none : Option (List UInt8)).isSome = true ∨ (none : Option Int).isSome = true
      ∨ negative = true ∧ n = 0) := by
    rintro (h | h | ⟨hnegative, hzero⟩)
    · cases h
    · cases h
    · exact hneg hnegative hzero
  simp only [readUnsigned, hcut, if_neg hwhole, hfraction, hexponent, Option.bind_eq_bind,
    Option.bind_some, Option.getD_none, List.append_nil, digitsValue_digits, isHuge_ofDigits hn,
    if_neg hsign, Bool.false_eq_true, if_false]

/-! ### Words -/

/-- One word takes one step. -/
theorem tokensFrom_cons {b : UInt8} {w : Token} (hblank : isBlank b = false)
    (h : readToken b l = (w, rest)) : tokensFrom (n + 1) (b :: l) = w :: tokensFrom n rest := by
  rw [tokensFrom, hblank, h]
  rfl

/-- A text is cut into words if what follows it is of some kind. -/
structure Cuts (follows : List UInt8 → Prop) (cs : List Char) (ws : List Token) : Prop where
  cut : ∀ n rest, follows rest →
    tokensFrom (n + ws.length) (encodeUtf8 cs ++ rest) = ws ++ tokensFrom n rest
  short : ws.length ≤ (encodeUtf8 cs).length

/-- A text is cut into words, whatever follows it. -/
abbrev CutsAlways (cs : List Char) (ws : List Token) : Prop := Cuts (fun _ => True) cs ws

variable {cs cs' : List Char} {ws ws' : List Token}

theorem Cuts.of_always {follows : List UInt8 → Prop} (h : CutsAlways cs ws) :
    Cuts follows cs ws :=
  ⟨fun n rest _ => h.cut n rest trivial, h.short⟩

/-- A text of one word. -/
theorem cuts_word {follows : List UInt8 → Prop} {w : Token} {b : UInt8}
    (hchars : encodeUtf8 cs = b :: l) (hblank : isBlank b = false)
    (hread : ∀ rest, follows rest → readToken b (l ++ rest) = (w, rest)) : Cuts follows cs [w] where
  cut n rest hrest := by
    rw [hchars]
    exact tokensFrom_cons hblank (hread rest hrest)
  short := by
    rw [hchars]
    exact Nat.succ_le_succ (Nat.zero_le _)

/-- Texts one after the other are cut one after the other. -/
theorem Cuts.append {follows follows' : List UInt8 → Prop} (h : Cuts follows cs ws)
    (h' : Cuts follows' cs' ws')
    (hfollows : ∀ rest, follows' rest → follows (encodeUtf8 cs' ++ rest)) :
    Cuts follows' (cs ++ cs') (ws ++ ws') where
  cut n rest hrest := by
    rw [List.length_append, encodeUtf8_append, List.append_assoc, List.append_assoc,
      show n + (ws.length + ws'.length) = n + ws'.length + ws.length by omega,
      h.cut _ _ (hfollows rest hrest), h'.cut n rest hrest]
  short := by
    rw [encodeUtf8_append, List.length_append, List.length_append]
    exact Nat.add_le_add h.short h'.short

/-- A mark cuts itself off. -/
theorem cuts_mark {w : Token} {c : Char} {b : UInt8} (hchar : encodeUtf8 [c] = [b])
    (hblank : isBlank b = false) (hread : ∀ rest, readToken b rest = (w, rest)) :
    CutsAlways [c] [w] :=
  cuts_word hchar hblank fun rest _ => hread rest

/-- What ends at marks is cut off from a text that begins with one. -/
theorem Cuts.append_mark {c : Char} (h : Cuts Ends cs ws) (h' : CutsAlways (c :: cs') ws')
    (hc : c = ',' ∨ c = ']' ∨ c = '\x7d') : CutsAlways (cs ++ c :: cs') (ws ++ ws') := by
  refine h.append h' fun rest _ b hb => ?_
  rcases hc with rfl | rfl | rfl <;> (cases hb; decide)

theorem cuts_string (s : String) : CutsAlways (escaped s.toList) [.text (.plain s)] :=
  cuts_word rfl rfl fun rest _ => readToken_escaped s rest

/-- The word that begins with a digit, or with a minus sign, is a number. -/
theorem readToken_number {b : UInt8} {x : Number} (hb : b = 45 ∨ isDigit b)
    (h : readNumber (b :: l) = some (x, rest)) :
    isBlank b = false ∧ readToken b l = (.number x, rest) := by
  have hrange : b = 45 ∨ 48 ≤ b.toNat ∧ b.toNat ≤ 57 := by
    refine hb.imp_right fun hdigit => ?_
    rw [isDigit, Bool.and_eq_true, decide_eq_true_eq, decide_eq_true_eq] at hdigit
    exact ⟨UInt8.le_iff_toNat_le.mp hdigit.1, UInt8.le_iff_toNat_le.mp hdigit.2⟩
  have hne : ∀ c : UInt8, c.toNat ≠ 45 → c.toNat < 48 ∨ 57 < c.toNat → b ≠ c := by
    rintro c hc hout rfl
    rcases hrange with rfl | hin
    · exact hc rfl
    · omega
  constructor
  · simp only [isBlank, Bool.or_eq_false_iff, decide_eq_false_iff_not]
    exact ⟨⟨⟨hne _ (by decide) (by decide), hne _ (by decide) (by decide)⟩,
      hne _ (by decide) (by decide)⟩, hne _ (by decide) (by decide)⟩
  · rw [readToken, if_neg (hne _ (by decide) (by decide)), if_neg (hne _ (by decide) (by decide)),
      if_neg (hne _ (by decide) (by decide)), if_neg (hne _ (by decide) (by decide)),
      if_neg (hne _ (by decide) (by decide)), if_neg (hne _ (by decide) (by decide)),
      if_neg (hne _ (by decide) (by decide)), if_neg (hne _ (by decide) (by decide)),
      if_neg (hne _ (by decide) (by decide)), if_neg (hne _ (by decide) (by decide)), h]

theorem readNumber_digit {b : UInt8} (h : isDigit b) :
    readNumber (b :: l) = readUnsigned false (b :: l) := by
  rw [readNumber]
  intro l' heq
  cases heq
  exact absurd h (by decide)

theorem cuts_int {i : Int} (h : i.natAbs < Nat.pow 2 64) :
    Cuts Ends (Tree.ofInt i).chars [.number (.int i)] := by
  by_cases hneg : i < 0
  · have hchars : encodeUtf8 (Tree.ofInt i).chars = 45 :: digits i.natAbs := by
      show encodeUtf8 ((if i < 0 then ['-'] else []) ++ Nat.toDigits 10 i.natAbs) = _
      rw [if_pos hneg]
      rfl
    have hread : ∀ rest, Ends rest →
        readNumber (45 :: (digits i.natAbs ++ rest)) = some (.int i, rest) := by
      intro rest hrest
      show readUnsigned true _ = _
      rw [readUnsigned_digits h (fun _ => by omega) hrest, if_pos rfl]
      congr
      omega
    refine cuts_word hchars rfl fun rest hrest => ?_
    exact (readToken_number (Or.inl rfl) (hread rest hrest)).2
  · have hchars : encodeUtf8 (Tree.ofInt i).chars = digits i.natAbs := by
      show encodeUtf8 ((if i < 0 then ['-'] else []) ++ Nat.toDigits 10 i.natAbs) = _
      rw [if_neg hneg]
      rfl
    obtain ⟨b, l, hl⟩ := List.exists_cons_of_ne_nil (digits_ne_nil (n := i.natAbs))
    have hdigit : isDigit b := isDigit_of_mem_digits (n := i.natAbs) (hl ▸ List.mem_cons_self ..)
    have hread : ∀ rest, Ends rest → readNumber (b :: (l ++ rest)) = some (.int i, rest) := by
      intro rest hrest
      rw [readNumber_digit hdigit, ← List.cons_append, ← hl,
        readUnsigned_digits h (fun hfalse => by cases hfalse) hrest, if_neg (by decide)]
      congr
      omega
    refine cuts_word (hchars.trans hl) ?_ fun rest hrest => ?_
    · exact (readToken_number (Or.inr hdigit) (hread [] nofun)).1
    · exact (readToken_number (Or.inr hdigit) (hread rest hrest)).2

/-! ### Trees -/

/-- A tree with a text. -/
inductive Tree.IsPlain : Tree → Prop
  | null : IsPlain null
  | bool (b : Bool) : IsPlain (bool b)
  | int {i : Int} (h : i.natAbs < Nat.pow 2 64) : IsPlain (ofInt i)
  | string (s : String) : IsPlain (ofString s)
  | list {l : List Tree} (h : ∀ t ∈ l, IsPlain t) : IsPlain (ofList l)
  | fields {l : List (String × Tree)} (h : ∀ e ∈ l, IsPlain e.2) : IsPlain (ofFields l)

namespace Tree

/-- A tree is written as some words and read from them. -/
structure Spelt (t : Tree) (ws : List Token) : Prop extends Cuts Ends t.chars ws where
  read : ∀ n rest, 2 * ws.length ≤ n → readValue n (ws ++ rest) = (t, some rest)

/-- A tree of one word. -/
theorem spelt_word {t : Tree} {w : Token} (hcut : Cuts Ends t.chars [w])
    (hread : ∀ n rest, readValue (n + 1) (w :: rest) = (t, some rest)) : t.Spelt [w] := by
  refine ⟨hcut, fun n rest hn => ?_⟩
  obtain ⟨m, rfl⟩ : ∃ m, n = m + 1 := ⟨n - 1, by simp at hn; omega⟩
  exact hread m rest

/-! #### Lists -/

/-- The items of a list are written as some words and read from them, up to the
mark that closes the list. -/
structure SpeltItems (items : List Tree) (ws : List Token) : Prop
    extends Cuts (fun _ => True) (itemsChars items ++ [']']) ws where
  read : ∀ n rest, 2 * ws.length ≤ n → readItems n (ws ++ rest) = (items, some rest)

variable {t t' : Tree} {items : List Tree} {w : List Token}

theorem Spelt.lastItem (h : t.Spelt w) : SpeltItems [t] (w ++ [.closeList]) where
  toCuts := h.append_mark (cuts_mark rfl rfl fun _ => rfl) (by decide)
  read n rest hn := by
    rw [List.length_append, List.length_singleton] at hn
    obtain ⟨m, rfl⟩ : ∃ m, n = m + 1 := ⟨n - 1, by omega⟩
    rw [List.append_assoc, readItems, h.read m _ (by omega)]
    rfl

theorem Spelt.nextItem (h : t.Spelt w) (hrest : SpeltItems (t' :: items) ws) :
    SpeltItems (t :: t' :: items) (w ++ .comma :: ws) where
  toCuts := by
    have hcomma : CutsAlways (',' :: (itemsChars (t' :: items) ++ [']'])) (.comma :: ws) :=
      (cuts_mark (c := ',') rfl rfl fun _ => rfl).append hrest.toCuts fun _ _ => trivial
    have hcut := h.append_mark hcomma (by decide)
    rwa [← List.cons_append, ← List.append_assoc] at hcut
  read n rest hn := by
    rw [List.length_append, List.length_cons] at hn
    obtain ⟨m, rfl⟩ : ∃ m, n = m + 1 := ⟨n - 1, by omega⟩
    rw [List.append_assoc, readItems, h.read m _ (by omega)]
    simp only [List.cons_append, hrest.read m rest (by omega)]

theorem speltItems (h : ∀ t' ∈ t :: items, ∃ w, t'.Spelt w) : ∃ ws, SpeltItems (t :: items) ws := by
  induction items generalizing t with
  | nil =>
    obtain ⟨w, hw⟩ := h t (List.mem_cons_self ..)
    exact ⟨_, hw.lastItem⟩
  | cons t' items ih =>
    obtain ⟨w, hw⟩ := h t (List.mem_cons_self ..)
    obtain ⟨ws, hws⟩ := ih fun t'' ht => h t'' (List.mem_cons_of_mem _ ht)
    exact ⟨_, hw.nextItem hws⟩

/-- Items do not begin with the mark that closes their list. -/
theorem SpeltItems.start (h : SpeltItems (t :: items) ws) (rest l : List Token) :
    ws ++ rest ≠ .closeList :: l := by
  intro heq
  have hread := h.read (2 * ws.length + 2) rest (Nat.le_add_right ..)
  rw [heq, readItems] at hread
  cases hread

theorem spelt_list {l : List Tree} (h : ∀ t ∈ l, ∃ w, t.Spelt w) : ∃ w, (ofList l).Spelt w := by
  have hopen : CutsAlways ['['] [.openList] := cuts_mark rfl rfl fun _ => rfl
  cases l with
  | nil =>
    have hclose : CutsAlways [']'] [.closeList] := cuts_mark rfl rfl fun _ => rfl
    refine ⟨_, ⟨(hopen.append hclose fun _ _ => trivial).of_always, fun n rest hn => ?_⟩⟩
    obtain ⟨m, rfl⟩ : ∃ m, n = m + 1 := ⟨n - 1, by simp at hn; omega⟩
    rfl
  | cons t items =>
    obtain ⟨ws, hws⟩ := speltItems h
    refine ⟨_, ⟨(hopen.append hws.toCuts fun _ _ => trivial).of_always, fun n rest hn => ?_⟩⟩
    rw [List.length_append, List.length_singleton] at hn
    obtain ⟨m, rfl⟩ : ∃ m, n = m + 1 := ⟨n - 1, by omega⟩
    rw [List.append_assoc, List.singleton_append, readValue, hws.read m rest (by omega)]
    · rfl
    · exact hws.start rest

/-! #### Objects -/

/-- The fields of an object are written as some words and read from them, up to
the mark that closes the object. -/
structure SpeltFields (fields : List (Quoted × Tree)) (ws : List Token) : Prop
    extends Cuts (fun _ => True) (fieldsChars fields ++ ['\x7d']) ws where
  read : ∀ n rest, 2 * ws.length ≤ n → readFields n (ws ++ rest) = (fields, some rest)

variable {e e' : Quoted × Tree} {k : String} {fields : List (Quoted × Tree)}

/-- A field is cut into its name, a colon and what its value is cut into. -/
theorem Spelt.cuts_field (h : t.Spelt w) (k : String) :
    Cuts Ends (escaped k.toList ++ ':' :: t.chars) (.text (.plain k) :: .colon :: w) := by
  have hcolon : Cuts Ends (':' :: t.chars) (.colon :: w) :=
    (cuts_mark (c := ':') rfl rfl fun _ => rfl).append h.toCuts fun _ _ => trivial
  exact (cuts_string k).append hcolon fun _ _ => trivial

theorem Spelt.lastField (h : t.Spelt w) (k : String) :
    SpeltFields [(.plain k, t)] (.text (.plain k) :: .colon :: w ++ [.closeObject]) where
  toCuts := (h.cuts_field k).append_mark (cuts_mark rfl rfl fun _ => rfl) (by decide)
  read n rest hn := by
    simp only [List.length_append, List.length_cons, List.length_nil] at hn
    obtain ⟨m, rfl⟩ : ∃ m, n = m + 1 := ⟨n - 1, by omega⟩
    rw [List.append_assoc, List.cons_append, List.cons_append, readFields,
      h.read m _ (by omega)]
    rfl

theorem Spelt.nextField (h : t.Spelt w) (k : String) (hrest : SpeltFields (e :: fields) ws) :
    SpeltFields ((.plain k, t) :: e :: fields)
      (.text (.plain k) :: .colon :: w ++ .comma :: ws) where
  toCuts := by
    have hcomma : CutsAlways (',' :: (fieldsChars (e :: fields) ++ ['\x7d'])) (.comma :: ws) :=
      (cuts_mark (c := ',') rfl rfl fun _ => rfl).append hrest.toCuts fun _ _ => trivial
    have hcut := (h.cuts_field k).append_mark hcomma (by decide)
    rwa [← List.cons_append, ← List.append_assoc] at hcut
  read n rest hn := by
    simp only [List.length_append, List.length_cons] at hn
    obtain ⟨m, rfl⟩ : ∃ m, n = m + 1 := ⟨n - 1, by omega⟩
    rw [List.append_assoc, List.cons_append, List.cons_append, readFields,
      h.read m _ (by omega)]
    simp only [List.cons_append, hrest.read m rest (by omega)]

theorem speltFields {e : String × Tree} {l : List (String × Tree)}
    (h : ∀ e' ∈ e :: l, ∃ w, e'.2.Spelt w) :
    ∃ ws, SpeltFields ((e :: l).map fun e => (.plain e.1, e.2)) ws := by
  induction l generalizing e with
  | nil =>
    obtain ⟨w, hw⟩ := h e (List.mem_cons_self ..)
    exact ⟨_, hw.lastField e.1⟩
  | cons e' l ih =>
    obtain ⟨w, hw⟩ := h e (List.mem_cons_self ..)
    obtain ⟨ws, hws⟩ := ih fun e'' he => h e'' (List.mem_cons_of_mem _ he)
    exact ⟨_, hw.nextField e.1 hws⟩

theorem SpeltFields.start (h : SpeltFields (e :: fields) ws) (rest l : List Token) :
    ws ++ rest ≠ .closeObject :: l := by
  intro heq
  have hread := h.read (2 * ws.length + 2) rest (Nat.le_add_right ..)
  rw [heq, show readFields (2 * ws.length + 2) (.closeObject :: l) = ([], none) from rfl] at hread
  cases hread

theorem spelt_fields {l : List (String × Tree)} (h : ∀ e ∈ l, ∃ w, e.2.Spelt w) :
    ∃ w, (ofFields l).Spelt w := by
  have hopen : CutsAlways ['\x7b'] [.openObject] := cuts_mark rfl rfl fun _ => rfl
  cases l with
  | nil =>
    have hclose : CutsAlways ['\x7d'] [.closeObject] := cuts_mark rfl rfl fun _ => rfl
    refine ⟨_, ⟨(hopen.append hclose fun _ _ => trivial).of_always, fun n rest hn => ?_⟩⟩
    obtain ⟨m, rfl⟩ : ∃ m, n = m + 1 := ⟨n - 1, by simp at hn; omega⟩
    rfl
  | cons e l =>
    obtain ⟨ws, hws⟩ := speltFields h
    refine ⟨_, ⟨(hopen.append hws.toCuts fun _ _ => trivial).of_always, fun n rest hn => ?_⟩⟩
    rw [List.length_append, List.length_singleton] at hn
    obtain ⟨m, rfl⟩ : ∃ m, n = m + 1 := ⟨n - 1, by omega⟩
    rw [List.append_assoc, List.singleton_append, readValue, hws.read m rest (by omega)]
    · rfl
    · exact hws.start rest

/-! #### All trees -/

theorem IsPlain.spelt (h : t.IsPlain) : ∃ w, t.Spelt w := by
  induction h with
  | null => exact ⟨_, spelt_word (cuts_word rfl rfl fun _ _ => rfl) fun _ _ => rfl⟩
  | bool b =>
    cases b with
    | false => exact ⟨_, spelt_word (cuts_word rfl rfl fun _ _ => rfl) fun _ _ => rfl⟩
    | true => exact ⟨_, spelt_word (cuts_word rfl rfl fun _ _ => rfl) fun _ _ => rfl⟩
  | int h => exact ⟨_, spelt_word (cuts_int h) fun _ _ => rfl⟩
  | string s => exact ⟨_, spelt_word (cuts_string s).of_always fun _ _ => rfl⟩
  | list _ ih => exact spelt_list ih
  | fields _ ih => exact spelt_fields ih

end Tree

/-- **A tree is read back from its text.** -/
theorem read_chars {t : Tree} (h : t.IsPlain) : read (encodeUtf8 t.chars) = ⟨t, true⟩ := by
  obtain ⟨w, hw⟩ := h.spelt
  have htokens : tokens (encodeUtf8 t.chars) = w := by
    have hcut := hw.cut ((encodeUtf8 t.chars).length - w.length) [] nofun
    rw [Nat.sub_add_cancel hw.short, List.append_nil] at hcut
    rw [tokens, hcut]
    cases (encodeUtf8 t.chars).length - w.length <;> exact List.append_nil w
  have hread := hw.read (2 * w.length + 2) [] (Nat.le_add_right ..)
  rw [List.append_nil] at hread
  rw [read, htokens, hread]
  rfl

/-- **What a decoder makes of a text** is what it makes of the tree. -/
theorem Decoder.decode_chars {α : Type} (d : Decoder α) {t : Tree} (h : t.IsPlain) :
    d.decode (encodeUtf8 t.chars) = d t := by
  rw [decode, read_chars h]
  show (d t).bind Except.ok = d t
  cases d t <;> rfl

theorem Decoder.stringOf_ofString {α : Type} {f : String → Option α} {s : String} {a : α}
    (h : f s = some a) : stringOf f (Tree.ofString s) = .ok a := by
  have hstring : Decoder.string (Tree.ofString s) = .ok s := rfl
  rw [stringOf, hstring]
  show Except.bind (.ok s) _ = _
  simp only [Except.bind, h]

/-- **A string that is sent is the string that is received.** -/
theorem decode_ofString {α : Type} {f : String → Option α} {s : String} {a : α} (h : f s = some a) :
    (Decoder.stringOf f).decode (encodeUtf8 (Tree.ofString s).chars) = .ok a := by
  rw [Decoder.decode_chars _ (.string s), Decoder.stringOf_ofString h]

end Rendezvous.Json
