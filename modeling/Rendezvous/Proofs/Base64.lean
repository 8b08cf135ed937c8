/-
Rendezvous/Proofs/Base64.lean

Reading base64 undoes writing it, and nothing else can be read.

    decode bs = .ok l  ↔  bs = encode l

Both directions follow the groups of four symbols.  A group stands for its
octets by division with remainder, so the identities between values and octets
are linear arithmetic; what takes an argument is the last group, whose symbols
are counted while they are read.

The symbols are ASCII, so the same holds of texts: a text can be read exactly
if it is the base64 text of the octets read (`decode_octetsOf_iff`).
-/
import Rendezvous.Base64
import Rendezvous.Text.Utf8

namespace Rendezvous

/-! ### Octets of texts -/

namespace Text

/-- The octets of a list of characters determine it. -/
theorem encodeUtf8_injective {cs cs' : List Char} (h : encodeUtf8 cs = encodeUtf8 cs') :
    cs = cs' := by
  have henc : cs.utf8Encode = cs'.utf8Encode := congrArg List.toByteArray h
  have hdec := congrArg ByteArray.utf8Decode? henc
  rw [List.utf8Decode?_utf8Encode, List.utf8Decode?_utf8Encode] at hdec
  have harr : cs.toArray = cs'.toArray := Option.some.inj hdec
  simpa using congrArg Array.toList harr

/-- The octets of a text determine it. -/
theorem octetsOf_injective {s s' : String} (h : octetsOf s = octetsOf s') : s = s' :=
  String.toList_inj.mp (encodeUtf8_injective h)

theorem octetsOf_ofList (cs : List Char) : octetsOf (String.ofList cs) = encodeUtf8 cs := by
  rw [octetsOf, String.toList_ofList]

/-- An ASCII character is one octet. -/
theorem utf8EncodeChar_ofNat {b : UInt8} (h : b.toNat < 128) :
    String.utf8EncodeChar (Char.ofNat b.toNat) = [b] := by
  have hall : ∀ n < 128, String.utf8EncodeChar (Char.ofNat n) = [UInt8.ofNat n] := by decide
  rw [hall _ h, UInt8.ofNat_toNat]

theorem utf8Size_ofNat {n : Nat} (h : n < 128) : (Char.ofNat n).utf8Size = 1 := by
  have hall : ∀ n < 128, (Char.ofNat n).utf8Size = 1 := by decide
  exact hall n h

/-- ASCII octets are the octets of the characters with these numbers. -/
theorem encodeUtf8_map_ofNat {l : List UInt8} (h : ∀ b ∈ l, b.toNat < 128) :
    encodeUtf8 (l.map fun b => Char.ofNat b.toNat) = l := by
  induction l with
  | nil => rfl
  | cons b rest ih =>
    have hb := h b (List.mem_cons_self ..)
    have hrest := ih fun c hc => h c (List.mem_cons_of_mem _ hc)
    show String.utf8EncodeChar (Char.ofNat b.toNat) ++ encodeUtf8 _ = b :: rest
    rw [utf8EncodeChar_ofNat hb, hrest]
    rfl

end Text

namespace Base64

/-! ### Symbols -/

theorem value?_symbol {v : Nat} (h : v < 64) : value? (symbol v) = some v := by
  have hall : ∀ v < 64, value? (symbol v) = some v := by decide
  exact hall v h

theorem symbol_ne_pad {v : Nat} (h : v < 64) : symbol v ≠ pad := by
  have hall : ∀ v < 64, symbol v ≠ pad := by decide
  exact hall v h

theorem symbol_lt {v : Nat} (h : v < 64) : (symbol v).toNat < 128 := by
  have hall : ∀ v < 64, (symbol v).toNat < 128 := by decide
  exact hall v h

set_option maxRecDepth 2000 in
/-- Only the symbol of a value has that value. -/
theorem eq_symbol_of_value? {b : UInt8} {v : Nat} (h : value? b = some v) :
    v < 64 ∧ b = symbol v := by
  have hall : ∀ n < 256, ∀ v ∈ value? (UInt8.ofNat n), v < 64 ∧ UInt8.ofNat n = symbol v := by
    decide
  have hb := hall b.toNat b.toNat_lt v
  rw [UInt8.ofNat_toNat] at hb
  exact hb h

theorem valueAt_symbol {v : Nat} (h : v < 64) (offset : Nat) :
    valueAt offset (symbol v) = .ok v := by
  rw [valueAt, value?_symbol h]

theorem eq_symbol_of_valueAt {offset : Nat} {b : UInt8} {v : Nat}
    (h : valueAt offset b = .ok v) : v < 64 ∧ b = symbol v := by
  rw [valueAt] at h
  split at h
  · rename_i w hw
    cases h
    exact eq_symbol_of_value? hw
  · cases h

/-! ### Groups

The symbols of a list of values, each below 64, and the octets that such
values stand for. -/

/-- Values that have symbols. -/
def Small (vs : List Nat) : Prop := ∀ v ∈ vs, v < 64

theorem scanTail_symbols {vs : List Nat} (h : Small vs) (offset i : Nat) (seen : List Nat) :
    scanTail offset i ⟨seen, none⟩ (vs.map symbol) = .ok ⟨seen ++ vs, none⟩ := by
  induction vs generalizing offset i seen with
  | nil => simp [scanTail]
  | cons v rest ih =>
    have hv : v < 64 := h v (List.mem_cons_self ..)
    have hrest : Small rest := fun w hw => h w (List.mem_cons_of_mem _ hw)
    rw [List.map_cons, scanTail, if_neg (symbol_ne_pad hv)]
    show (valueAt offset (symbol v) >>= fun w => scanTail _ _ _ _) = _
    rw [valueAt_symbol hv]
    show scanTail _ _ ⟨seen ++ [v], none⟩ _ = _
    rw [ih hrest, List.append_assoc]
    rfl

/-- Once there has been padding, it stays known. -/
theorem scanTail_padded {l : List UInt8} {offset i : Nat} {t t' : Tail}
    (h : scanTail offset i t l = .ok t') (ht : t.padded ≠ none) : t'.padded ≠ none := by
  induction l generalizing offset i t with
  | nil =>
    rw [scanTail] at h
    cases h
    exact ht
  | cons b rest ih =>
    rw [scanTail] at h
    split at h
    · split at h
      · cases h
      · refine ih h ?_
        rcases hp : t.padded with - | first
        · exact absurd hp ht
        · simp
    · split at h
      · cases h
      · rename_i hp
        exact absurd hp ht

/-- A last group that is read without padding consists of symbols. -/
theorem eq_symbols_of_scanTail {l : List UInt8} {offset i : Nat} {t t' : Tail}
    (h : scanTail offset i t l = .ok t') (hpad : t'.padded = none) :
    ∃ vs, Small vs ∧ l = vs.map symbol ∧ t'.values = t.values ++ vs := by
  induction l generalizing offset i t with
  | nil =>
    rw [scanTail] at h
    cases h
    exact ⟨[], nofun, rfl, (List.append_nil _).symm⟩
  | cons b rest ih =>
    rw [scanTail] at h
    split at h
    · -- padding, which is never forgotten
      split at h
      · cases h
      · refine absurd hpad (scanTail_padded h ?_)
        cases t.padded <;> simp
    · split at h
      · cases h
      · rcases hv : valueAt offset b with e | v
        · rw [hv] at h
          cases h
        · rw [hv] at h
          obtain ⟨hlt, rfl⟩ := eq_symbol_of_valueAt hv
          obtain ⟨vs, hvs, rfl, hval⟩ := ih h
          refine ⟨v :: vs, ?_, rfl, ?_⟩
          · intro w hw
            rcases List.mem_cons.mp hw with rfl | hw
            · exact hlt
            · exact hvs w hw
          · rw [hval, List.append_assoc]
            rfl

theorem decodeTail_symbols {vs : List Nat} (h : Small vs) (offset : Nat) (hlen : 2 ≤ vs.length) :
    decodeTail offset (vs.map symbol)
      = joinTail (((vs.map symbol).getLast?).getD pad) (offset + vs.length - 1) vs := by
  rw [decodeTail, scanTail_symbols h]
  show (if vs.length < 2 then _ else _) = _
  rw [if_neg (Nat.not_lt.mpr hlen)]
  rfl

theorem eq_symbols_of_decodeTail {l : List UInt8} {offset : Nat} {out : List UInt8}
    (h : decodeTail offset l = .ok out) :
    ∃ vs last place, Small vs ∧ l = vs.map symbol ∧ 2 ≤ vs.length ∧
      joinTail last place vs = .ok out := by
  rw [decodeTail] at h
  rcases hs : scanTail offset 0 ⟨[], none⟩ l with e | t
  · rw [hs] at h
    cases h
  · rw [hs] at h
    change (if t.values.length < 2 then _ else _) = _ at h
    split at h
    · cases h
    · rename_i hcount
      split at h
      · cases h
      · rename_i hpad
        have hnone : t.padded = none := by
          rcases hp : t.padded with - | first
          · rfl
          · simp [hp] at hpad
        obtain ⟨vs, hvs, rfl, hval⟩ := eq_symbols_of_scanTail hs hnone
        rw [hval] at h hcount
        exact ⟨vs, _, _, hvs, rfl, Nat.not_lt.mp hcount, h⟩

/-! ### Octets of a group -/

theorem ofNat_eq_of_toNat {n : Nat} {b : UInt8} (h : n = b.toNat) : UInt8.ofNat n = b := by
  rw [h, UInt8.ofNat_toNat]

theorem toNat_ofNat_lt {n : Nat} (h : n < 256) : (UInt8.ofNat n).toNat = n := by
  rw [UInt8.toNat_ofNat', Nat.mod_eq_of_lt h]

/-- Four values out of three octets, and back. -/
theorem octets_of_values (a b c : UInt8) :
    UInt8.ofNat (a.toNat / 4 * 4 + (a.toNat % 4 * 16 + b.toNat / 16) / 16) = a ∧
      UInt8.ofNat ((a.toNat % 4 * 16 + b.toNat / 16) % 16 * 16
        + (b.toNat % 16 * 4 + c.toNat / 64) / 4) = b ∧
      UInt8.ofNat ((b.toNat % 16 * 4 + c.toNat / 64) % 4 * 64 + c.toNat % 64) = c := by
  have ha := a.toNat_lt
  have hb := b.toNat_lt
  have hc := c.toNat_lt
  refine ⟨ofNat_eq_of_toNat ?_, ofNat_eq_of_toNat ?_, ofNat_eq_of_toNat ?_⟩ <;> omega

/-- Three octets out of four values, and back. -/
theorem encode_values {va vb vc vd : Nat} (ha : va < 64) (hb : vb < 64) (hc : vc < 64)
    (hd : vd < 64) (rest : List UInt8) :
    encode (UInt8.ofNat (va * 4 + vb / 16) :: UInt8.ofNat (vb % 16 * 16 + vc / 4)
        :: UInt8.ofNat (vc % 4 * 64 + vd) :: rest)
      = symbol va :: symbol vb :: symbol vc :: symbol vd :: encode rest := by
  have hx := toNat_ofNat_lt (show va * 4 + vb / 16 < 256 by omega)
  have hy := toNat_ofNat_lt (show vb % 16 * 16 + vc / 4 < 256 by omega)
  have hz := toNat_ofNat_lt (show vc % 4 * 64 + vd < 256 by omega)
  rw [encode, hx, hy, hz]
  congr 1
  · congr 1
    omega
  · congr 1
    · congr 1
      omega
    · congr 1
      · congr 1
        omega
      · congr 2
        omega

/-- The last group, which may be shorter, as what is written. -/
theorem eq_encode_of_joinTail {vs : List Nat} (hvs : Small vs) (hmin : 2 ≤ vs.length)
    (hmax : vs.length ≤ 4) {last : UInt8} {place : Nat} {out : List UInt8}
    (h : joinTail last place vs = .ok out) : vs.map symbol = encode out := by
  match vs with
  | [] | [_] => simp at hmin
  | [a, b] =>
    have ha : a < 64 := hvs a (by simp)
    have hb : b < 64 := hvs b (by simp)
    rw [joinTail] at h
    split at h
    · -- the bits that belong to no octet are zero, so nothing is lost
      rename_i hlow
      cases h
      rw [encode, toNat_ofNat_lt (by omega)]
      simp only [List.map_cons, List.map_nil, List.cons.injEq, and_true]
      constructor <;> congr 1 <;> omega
    · cases h
  | [a, b, c] =>
    have ha : a < 64 := hvs a (by simp)
    have hb : b < 64 := hvs b (by simp)
    have hc : c < 64 := hvs c (by simp)
    rw [joinTail] at h
    split at h
    · rename_i hlow
      cases h
      rw [encode, toNat_ofNat_lt (by omega), toNat_ofNat_lt (by omega)]
      simp only [List.map_cons, List.map_nil, List.cons.injEq, and_true]
      refine ⟨?_, ?_, ?_⟩ <;> congr 1 <;> omega
    · cases h
  | [a, b, c, d] =>
    rw [joinTail] at h
    cases h
    rw [encode_values (hvs a (by simp)) (hvs b (by simp)) (hvs c (by simp)) (hvs d (by simp))]
    rfl
  | _ :: _ :: _ :: _ :: _ :: _ =>
    simp only [List.length_cons] at hmax
    omega

/-- What is written for at most three octets is read as a last group. -/
theorem decodeTail_encode {l : List UInt8} (hmin : l ≠ []) (hmax : l.length ≤ 3)
    (offset : Nat) : decodeTail offset (encode l) = .ok l := by
  match l with
  | [] => exact absurd rfl hmin
  | [a] =>
    have ha := a.toNat_lt
    have hvs : Small [a.toNat / 4, a.toNat % 4 * 16] := by
      simp only [Small, List.mem_cons, List.not_mem_nil, or_false, forall_eq_or_imp, forall_eq]
      omega
    have hx : UInt8.ofNat (a.toNat / 4 * 4 + a.toNat % 4 * 16 / 16) = a :=
      ofNat_eq_of_toNat (by omega)
    show decodeTail offset (List.map symbol [a.toNat / 4, a.toNat % 4 * 16]) = _
    rw [decodeTail_symbols hvs offset (Nat.le_refl 2), joinTail, if_pos (by omega), hx]
  | [a, b] =>
    have ha := a.toNat_lt
    have hb := b.toNat_lt
    have hvs : Small [a.toNat / 4, a.toNat % 4 * 16 + b.toNat / 16, b.toNat % 16 * 4] := by
      simp only [Small, List.mem_cons, List.not_mem_nil, or_false, forall_eq_or_imp, forall_eq]
      omega
    have hx : UInt8.ofNat (a.toNat / 4 * 4 + (a.toNat % 4 * 16 + b.toNat / 16) / 16) = a :=
      ofNat_eq_of_toNat (by omega)
    have hy : UInt8.ofNat ((a.toNat % 4 * 16 + b.toNat / 16) % 16 * 16
        + b.toNat % 16 * 4 / 4) = b :=
      ofNat_eq_of_toNat (by omega)
    show decodeTail offset (List.map symbol
      [a.toNat / 4, a.toNat % 4 * 16 + b.toNat / 16, b.toNat % 16 * 4]) = _
    rw [decodeTail_symbols hvs offset (by simp), joinTail, if_pos (by omega), hx, hy]
  | [a, b, c] =>
    have ha := a.toNat_lt
    have hb := b.toNat_lt
    have hc := c.toNat_lt
    have hvs : Small [a.toNat / 4, a.toNat % 4 * 16 + b.toNat / 16,
        b.toNat % 16 * 4 + c.toNat / 64, c.toNat % 64] := by
      simp only [Small, List.mem_cons, List.not_mem_nil, or_false, forall_eq_or_imp, forall_eq]
      omega
    obtain ⟨hx, hy, hz⟩ := octets_of_values a b c
    show decodeTail offset (List.map symbol [a.toNat / 4, a.toNat % 4 * 16 + b.toNat / 16,
      b.toNat % 16 * 4 + c.toNat / 64, c.toNat % 64]) = _
    rw [decodeTail_symbols hvs offset (by simp), joinTail, hx, hy, hz]
  | _ :: _ :: _ :: _ :: _ =>
    simp only [List.length_cons] at hmax
    omega

/-! ### Whole texts -/

theorem encode_ne_nil {l : List UInt8} (h : l ≠ []) : encode l ≠ [] := by
  match l with
  | [] => exact absurd rfl h
  | [_] | [_, _] | _ :: _ :: _ :: _ => simp [encode]

/-- A group before the last one. -/
theorem decodeFrom_group {va vb vc vd : Nat} (h : Small [va, vb, vc, vd]) (offset : Nat)
    {rest : List UInt8} (hrest : rest ≠ []) :
    decodeFrom offset (symbol va :: symbol vb :: symbol vc :: symbol vd :: rest)
      = (decodeFrom (offset + 4) rest).map fun more =>
          UInt8.ofNat (va * 4 + vb / 16) :: UInt8.ofNat (vb % 16 * 16 + vc / 4)
            :: UInt8.ofNat (vc % 4 * 64 + vd) :: more := by
  obtain ⟨e, rest, rfl⟩ := List.exists_cons_of_ne_nil hrest
  rw [decodeFrom, valueAt_symbol (h va (by simp)), valueAt_symbol (h vb (by simp)),
    valueAt_symbol (h vc (by simp)), valueAt_symbol (h vd (by simp))]
  show (decodeFrom (offset + 4) (e :: rest) >>= fun more => _) = _
  rcases decodeFrom (offset + 4) (e :: rest) with f | more <;> rfl

theorem decodeFrom_encode (offset : Nat) (l : List UInt8) :
    decodeFrom offset (encode l) = .ok l := by
  match l with
  -- at most three octets make one last group
  | [] => rfl
  | [a] => exact decodeTail_encode (l := [a]) (by simp) (by simp) offset
  | [a, b] => exact decodeTail_encode (l := [a, b]) (by simp) (by simp) offset
  | [a, b, c] => exact decodeTail_encode (l := [a, b, c]) (by simp) (by simp) offset
  | a :: b :: c :: d :: rest =>
    have ha := a.toNat_lt
    have hb := b.toNat_lt
    have hc := c.toNat_lt
    have hvs : Small [a.toNat / 4, a.toNat % 4 * 16 + b.toNat / 16,
        b.toNat % 16 * 4 + c.toNat / 64, c.toNat % 64] := by
      simp only [Small, List.mem_cons, List.not_mem_nil, or_false, forall_eq_or_imp, forall_eq]
      omega
    obtain ⟨hx, hy, hz⟩ := octets_of_values a b c
    rw [encode, decodeFrom_group hvs offset (encode_ne_nil (List.cons_ne_nil d rest)),
      decodeFrom_encode (offset + 4) (d :: rest), hx, hy, hz]
    rfl

theorem eq_encode_of_decodeTail {l : List UInt8} (hmax : l.length ≤ 4) {offset : Nat}
    {out : List UInt8} (h : decodeTail offset l = .ok out) : l = encode out := by
  obtain ⟨vs, last, place, hvs, rfl, hmin, hjoin⟩ := eq_symbols_of_decodeTail h
  rw [List.length_map] at hmax
  exact eq_encode_of_joinTail hvs hmin hmax hjoin

theorem eq_encode_of_decodeFrom {offset : Nat} {bs l : List UInt8}
    (h : decodeFrom offset bs = .ok l) : bs = encode l := by
  match bs with
  -- up to four symbols can only be a last group
  | [] =>
    rw [decodeFrom] at h
    cases h
    rfl
  | [a] => exact eq_encode_of_decodeTail (by simp) h
  | [a, b] => exact eq_encode_of_decodeTail (by simp) h
  | [a, b, c] => exact eq_encode_of_decodeTail (by simp) h
  | [a, b, c, d] => exact eq_encode_of_decodeTail (by simp) h
  | a :: b :: c :: d :: e :: rest =>
    rw [decodeFrom] at h
    -- reading stops at the first octet that is no symbol
    rcases ha : valueAt offset a with f | va
    · rw [ha] at h
      cases h
    rcases hb : valueAt (offset + 1) b with f | vb
    · rw [ha, hb] at h
      cases h
    rcases hc : valueAt (offset + 2) c with f | vc
    · rw [ha, hb, hc] at h
      cases h
    rcases hd : valueAt (offset + 3) d with f | vd
    · rw [ha, hb, hc, hd] at h
      cases h
    rcases hmore : decodeFrom (offset + 4) (e :: rest) with f | more
    · rw [ha, hb, hc, hd, hmore] at h
      cases h
    rw [ha, hb, hc, hd, hmore] at h
    cases h
    obtain ⟨hva, rfl⟩ := eq_symbol_of_valueAt ha
    obtain ⟨hvb, rfl⟩ := eq_symbol_of_valueAt hb
    obtain ⟨hvc, rfl⟩ := eq_symbol_of_valueAt hc
    obtain ⟨hvd, rfl⟩ := eq_symbol_of_valueAt hd
    rw [encode_values hva hvb hvc hvd, eq_encode_of_decodeFrom hmore]

theorem length_encode (l : List UInt8) : (encode l).length = (l.length * 4 + 2) / 3 := by
  match l with
  | [] | [_] | [_, _] => simp [encode]
  | a :: b :: c :: rest =>
    simp only [encode, List.length_cons]
    rw [length_encode rest]
    omega

/-- No text that is written has a stray octet at its end. -/
theorem strayLast?_encode (l : List UInt8) : strayLast? (encode l) = none := by
  rw [strayLast?]
  split
  · have hlen := length_encode l
    rw [if_neg]
    rintro ⟨hmod, -⟩
    omega
  · rfl

/-- **Reading accepts exactly what writing produces.** -/
theorem decode_eq_ok_iff {bs l : List UInt8} : decode bs = .ok l ↔ bs = encode l := by
  constructor
  · intro h
    rw [decode] at h
    split at h
    · cases h
    · exact eq_encode_of_decodeFrom h
  · rintro rfl
    rw [decode, strayLast?_encode]
    exact decodeFrom_encode 0 l

/-! ### Texts -/

theorem encode_lt (l : List UInt8) : ∀ b ∈ encode l, b.toNat < 128 := by
  match l with
  | [] => exact nofun
  | [a] =>
    have ha := a.toNat_lt
    simp only [encode, List.mem_cons, List.not_mem_nil, or_false, forall_eq_or_imp, forall_eq]
    exact ⟨symbol_lt (by omega), symbol_lt (by omega)⟩
  | [a, b] =>
    have ha := a.toNat_lt
    have hb := b.toNat_lt
    simp only [encode, List.mem_cons, List.not_mem_nil, or_false, forall_eq_or_imp, forall_eq]
    exact ⟨symbol_lt (by omega), symbol_lt (by omega), symbol_lt (by omega)⟩
  | a :: b :: c :: rest =>
    have ha := a.toNat_lt
    have hb := b.toNat_lt
    have hc := c.toNat_lt
    simp only [encode, List.mem_cons, forall_eq_or_imp]
    exact ⟨symbol_lt (by omega), symbol_lt (by omega), symbol_lt (by omega),
      symbol_lt (by omega), encode_lt rest⟩

theorem octetsOf_text (l : List UInt8) : Text.octetsOf (text l) = encode l := by
  rw [text, Text.octetsOf_ofList, Text.encodeUtf8_map_ofNat (encode_lt l)]

/-- A text can be read exactly if it is the base64 text of what is read. -/
theorem decode_octetsOf_iff {s : String} {l : List UInt8} :
    decode (Text.octetsOf s) = .ok l ↔ s = text l := by
  rw [decode_eq_ok_iff, ← octetsOf_text]
  exact ⟨Text.octetsOf_injective, congrArg _⟩

/-- Different octets have different texts. -/
theorem text_injective {l l' : List UInt8} (h : text l = text l') : l = l' := by
  have hl := decode_octetsOf_iff.mpr h
  rw [decode_octetsOf_iff.mpr rfl] at hl
  exact Except.ok.inj hl

end Base64

end Rendezvous
