/-
Rendezvous/Proofs/Url.lean

Keys inside URLs.

A client puts a key into a URL as it is.  What then gets into the path is a part
of the key (`written_sublist`), which is cut at slashes; of the segments some are
taken out, and the others are escaped and joined again (`target_keyPath`,
`mem_settle`).  Segments have no slashes, so they are found again in their path
(`cutAt_joinSegments`), and what is read from one is what the segment stood for
before it was escaped (`decode?_escapeBy`).
-/
import Mathlib.Data.List.TakeWhile
import Rendezvous.Http.Path
import Rendezvous.Proofs.Percent
import Rendezvous.Proofs.Uuid

namespace Rendezvous

/-! ### Cutting -/

namespace Text

variable {p : Char → Bool} {l w : List Char} {c : Char}

/-- A stretch has no character at which was cut. -/
theorem eq_false_of_mem_cutAt (h : w ∈ cutAt p l) (hc : c ∈ w) : p c = false := by
  induction l generalizing w with
  | nil =>
    rw [cutAt, List.mem_singleton] at h
    subst h
    cases hc
  | cons d l ih =>
    rw [cutAt] at h
    split at h
    · rcases List.mem_cons.mp h with rfl | h
      · cases hc
      · exact ih h hc
    · rename_i hd
      have hd' : p d = false := Bool.eq_false_iff.mpr hd
      rcases hcut : cutAt p l with _ | ⟨w', ws⟩
      · exact absurd hcut cutAt_ne_nil
      · rw [hcut] at h ih
        rcases List.mem_cons.mp h with rfl | h
        · rcases List.mem_cons.mp hc with rfl | hc
          · exact hd'
          · exact ih (List.mem_cons_self ..) hc
        · exact ih (List.mem_cons_of_mem _ h) hc

theorem sublist_of_mem_cutAt (h : w ∈ cutAt p l) : w.Sublist l := by
  induction l generalizing w with
  | nil =>
    rw [cutAt, List.mem_singleton] at h
    subst h
    exact List.Sublist.refl []
  | cons d l ih =>
    rw [cutAt] at h
    split at h
    · rcases List.mem_cons.mp h with rfl | h
      · exact List.nil_sublist _
      · exact (ih h).cons d
    · rcases hcut : cutAt p l with _ | ⟨w', ws⟩
      · exact absurd hcut cutAt_ne_nil
      · rw [hcut] at h ih
        rcases List.mem_cons.mp h with rfl | h
        · exact (ih (List.mem_cons_self ..)).cons_cons d
        · exact (ih (List.mem_cons_of_mem _ h)).cons d

end Text

namespace Http

open Text

namespace Url

variable {l s w : List Char} {c : Char} {done segs : List (List Char)}

/-! ### Cleaning -/

/-- Whether a character stays wherever it stands. -/
def stays (c : Char) : Bool := c ≠ '\t' && c ≠ '\n' && c ≠ '\r'

/-- A text without the blanks at its end. -/
def trimmed (l : List Char) : List Char := (l.reverse.dropWhile fun c => c.toNat ≤ 32).reverse

theorem clean_eq (l : List Char) : clean l = (trimmed l).filter stays := rfl

theorem trimmed_append {c : Char} (hc : 32 < c.toNat) (front l : List Char) :
    trimmed (front ++ c :: l) = front ++ c :: trimmed l := by
  have hstop : (c :: front.reverse).dropWhile (fun c => c.toNat ≤ 32) = c :: front.reverse :=
    List.dropWhile_cons_of_neg (by simpa using hc)
  have hreverse : (front ++ c :: l).reverse = l.reverse ++ c :: front.reverse := by simp
  rw [trimmed, hreverse, List.dropWhile_append, hstop, trimmed]
  split
  · rename_i hempty
    rw [List.isEmpty_iff.mp hempty]
    simp
  · simp

theorem trimmed_sublist (l : List Char) : (trimmed l).Sublist l := by
  have h : (l.reverse.dropWhile fun c => c.toNat ≤ 32).Sublist l.reverse :=
    List.dropWhile_sublist _
  rw [← List.reverse_sublist, List.reverse_reverse] at h
  exact h

/-- Only what ends in another character than a blank is not trimmed. -/
theorem trimmed_eq_self_iff : trimmed l = l ↔ ∀ c ∈ l.getLast?, 32 < c.toNat := by
  rcases List.eq_nil_or_concat l with rfl | ⟨front, c, rfl⟩
  · simp [trimmed]
  · rw [List.concat_eq_append, List.getLast?_concat]
    by_cases hc : 32 < c.toNat
    · rw [trimmed_append hc]
      simpa [trimmed] using hc
    · have hshort : trimmed (front ++ [c]) = trimmed front := by
        rw [trimmed, List.reverse_concat, List.dropWhile_cons_of_pos (by simpa using hc), trimmed]
      have hne : trimmed front ≠ front ++ [c] := by
        intro heq
        have hle := (trimmed_sublist front).length_le
        rw [heq, List.length_append, List.length_singleton] at hle
        omega
      rw [hshort]
      simpa [hne] using hc

theorem clean_sublist (l : List Char) : (clean l).Sublist l :=
  List.filter_sublist.trans (trimmed_sublist l)

theorem clean_eq_self_iff :
    clean l = l ↔ (∀ c ∈ l.getLast?, 32 < c.toNat) ∧ ∀ c ∈ l, stays c := by
  rw [clean_eq, ← trimmed_eq_self_iff]
  constructor
  · intro h
    have htrimmed : trimmed l = l := by
      refine (trimmed_sublist l).eq_of_length_le ?_
      have hle := List.length_filter_le stays (trimmed l)
      rwa [h] at hle
    rw [htrimmed, List.filter_eq_self] at h
    exact ⟨htrimmed, h⟩
  · rintro ⟨htrimmed, hstays⟩
    rw [htrimmed, List.filter_eq_self.mpr hstays]

/-! ### What becomes of a key -/

/-- Whether segments are cut at a character. -/
def slashed (c : Char) : Bool := c = '/' || c = '\\'

/-- What of a key gets into the path. -/
def written (key : List Char) : List Char :=
  ((clean key).takeWhile (· ≠ '#')).takeWhile (· ≠ '?')

theorem written_sublist (key : List Char) : (written key).Sublist key :=
  ((List.takeWhile_sublist _).trans (List.takeWhile_sublist _)).trans (clean_sublist key)

/-- The segments of the path under which a key is read. -/
def segments (key : List Char) : List (List Char) :=
  settle [] (['k', 'v'] :: cutAt slashed (written key))

/-- The target for a key is its path, and a query if there is one. -/
theorem target_keyPath (key : String) :
    ∃ query, (∀ c ∈ query.head?, c = '?')
      ∧ (target (keyPath key)).toList = joinSegments (segments key.toList) ++ query := by
  have hfront : (keyPath key).toList = ['/', 'k', 'v'] ++ '/' :: key.toList := by
    rw [keyPath, String.toList_append, String.toList_append]
    rfl
  have hclean : clean (keyPath key).toList = ['/', 'k', 'v', '/'] ++ clean key.toList := by
    rw [hfront, clean_eq, trimmed_append (by decide), clean_eq]
    rfl
  have hcut : ∀ l, (cutAt slashed (['/', 'k', 'v', '/'] ++ l)).tail
      = ['k', 'v'] :: cutAt slashed l := fun l => rfl
  refine ⟨escapeBy queryEscapes
    (((clean (keyPath key).toList).takeWhile (· ≠ '#')).dropWhile (· ≠ '?')), ?_, ?_⟩
  · rcases hquery : ((clean (keyPath key).toList).takeWhile (· ≠ '#')).dropWhile (· ≠ '?')
      with _ | ⟨c, rest⟩
    · exact nofun
    · have hfirst := List.head?_dropWhile_not (fun c : Char => decide (c ≠ '?'))
        ((clean (keyPath key).toList).takeWhile (· ≠ '#'))
      rw [hquery] at hfirst
      obtain rfl : c = '?' := by simpa using hfirst
      rintro c ⟨⟩
      rfl
  · rw [target, String.toList_ofList, hclean]
    show readPath (['/', 'k', 'v', '/'] ++ written key.toList) ++ _ = _
    rw [readPath, show (fun c : Char => decide (c = '/') || decide (c = '\\')) = slashed from rfl,
      hcut]
    rfl

/-! ### Segments -/

/-- A segment is kept: it is not made of dots, and its characters are escaped. -/
structure Keeps (s w : List Char) : Prop where
  escaped : w = escapeBy pathEscapes s
  ne_dot : plainDots s ≠ ['.']
  ne_dots : plainDots s ≠ ['.', '.']

theorem mem_settle (h : w ∈ settle done segs) :
    w ∈ done ∨ w = [] ∨ ∃ s ∈ segs, Keeps s w := by
  induction segs generalizing done with
  | nil =>
    rw [settle] at h
    exact Or.inl (List.mem_reverse.mp h)
  | cons s segs ih =>
    have hempty : ∀ {b : Bool} {done' : List (List Char)},
        w ∈ (if b then [[]] else []) ++ done' → w ∈ done' ∨ w = [] := by
      intro b done' hmem
      rcases List.mem_append.mp hmem with hmem | hmem
      · cases b with
        | false => cases hmem
        | true => exact Or.inr (List.mem_singleton.mp hmem)
      · exact Or.inl hmem
    have hlater : (∃ s' ∈ segs, Keeps s' w) → ∃ s' ∈ s :: segs, Keeps s' w := by
      rintro ⟨s', hs', hkeeps⟩
      exact ⟨s', List.mem_cons_of_mem _ hs', hkeeps⟩
    rw [settle] at h
    split at h
    · rcases ih h with hdone | hrest
      · rcases hempty hdone with hdone | hnil
        · exact Or.inl (List.mem_of_mem_tail hdone)
        · exact Or.inr (Or.inl hnil)
      · exact Or.inr (hrest.imp_right hlater)
    split at h
    · rcases ih h with hdone | hrest
      · rcases hempty hdone with hdone | hnil
        · exact Or.inl hdone
        · exact Or.inr (Or.inl hnil)
      · exact Or.inr (hrest.imp_right hlater)
    · rename_i hdots hdot
      rcases ih h with hdone | hrest
      · rcases List.mem_cons.mp hdone with rfl | hdone
        · exact Or.inr (Or.inr ⟨s, List.mem_cons_self .., rfl, hdot, hdots⟩)
        · exact Or.inl hdone
      · exact Or.inr (hrest.imp_right hlater)

/-- Segments without slashes are found again in their path. -/
theorem cutAt_joinSegments (h : ∀ w ∈ segs, '/' ∉ w) :
    cutAt (· == '/') (joinSegments segs) = [] :: segs := by
  have hslash : ∀ l, cutAt (· == '/') ('/' :: l) = [] :: cutAt (· == '/') l := fun l => rfl
  have hjoin : ∀ w segs, joinSegments (w :: segs) = '/' :: (w ++ joinSegments segs) :=
    fun w segs => rfl
  induction segs with
  | nil => rfl
  | cons w segs ih =>
    have hw : ∀ c ∈ w, (c == '/') = false := by
      intro c hc
      exact beq_eq_false_iff_ne.mpr fun heq => h w (List.mem_cons_self ..) (heq ▸ hc)
    have hsegs := ih fun w' hw' => h w' (List.mem_cons_of_mem _ hw')
    rw [hjoin, hslash]
    cases segs with
    | nil => rw [joinSegments, List.flatMap_nil, List.append_nil, cutAt_eq_self hw]
    | cons w' segs =>
      rw [hjoin, hslash] at hsegs
      rw [hjoin, cutAt_append hw rfl, (List.cons.inj hsegs).2]

/-! ### Characters of a path -/

theorem mem_encodeChar {d : Char} (h : c ∈ Percent.encodeChar d) : c = '%' ∨ Percent.IsHex c := by
  obtain ⟨x, -, hx⟩ := List.mem_flatMap.mp h
  have hlt := x.toNat_lt
  have hhex : ∀ n < 16, Percent.IsHex (digitChar n).toUpper := fun n hn =>
    Percent.isHex_of_eq (Percent.digit?_toUpper_digitChar hn).2
  rw [Percent.encodeOctet] at hx
  simp only [List.mem_cons, List.not_mem_nil, or_false] at hx
  rcases hx with rfl | rfl | rfl
  · exact Or.inl rfl
  · exact Or.inr (hhex _ (by omega))
  · exact Or.inr (hhex _ (by omega))

/-- An escaped text has only characters that it had and that are not escaped,
percent signs and digits. -/
theorem mem_escapeBy {escapes : Char → Bool} (h : c ∈ escapeBy escapes s) :
    (c ∈ s ∧ escapes c = false) ∨ c = '%' ∨ Percent.IsHex c := by
  obtain ⟨d, hd, hc⟩ := List.mem_flatMap.mp h
  by_cases hesc : escapes d
  · rw [if_pos hesc] at hc
    exact Or.inr (mem_encodeChar hc)
  · rw [if_neg hesc, List.mem_singleton] at hc
    subst hc
    exact Or.inl ⟨hd, Bool.eq_false_iff.mpr hesc⟩

theorem not_mem_segments {key : List Char} (h : w ∈ segments key) :
    '/' ∉ w ∧ '?' ∉ w ∧ '#' ∉ w := by
  have hhex : ¬ Percent.IsHex '/' ∧ ¬ Percent.IsHex '?' ∧ ¬ Percent.IsHex '#' := by
    refine ⟨?_, ?_, ?_⟩ <;> exact Bool.false_ne_true
  rcases mem_settle h with hnil | rfl | ⟨s, hs, hkeeps⟩
  · cases hnil
  · exact ⟨nofun, nofun, nofun⟩
  · have hslash : '/' ∉ s := by
      intro hmem
      rcases List.mem_cons.mp hs with rfl | hs
      · exact absurd hmem (by decide)
      · exact absurd (eq_false_of_mem_cutAt hs hmem) (by decide)
    have hnot : ∀ c, c ∉ s ∨ pathEscapes c = true → c ≠ '%' → ¬ Percent.IsHex c → c ∉ w := by
      intro c hc hpercent hdigit hmem
      rw [hkeeps.escaped] at hmem
      rcases mem_escapeBy hmem with ⟨hin, hesc⟩ | heq | hex
      · rcases hc with hc | hc
        · exact hc hin
        · rw [hc] at hesc
          cases hesc
      · exact hpercent heq
      · exact hdigit hex
    exact ⟨hnot '/' (Or.inl hslash) (by decide) hhex.1,
      hnot '?' (Or.inr rfl) (by decide) hhex.2.1, hnot '#' (Or.inr rfl) (by decide) hhex.2.2⟩

/-! ### Segments that are written as they are -/

theorem pathEscapes_of_isHex {c : Char} (h : Percent.IsHex c) : pathEscapes c = false := by
  have hall : ∀ n < 128, (digit? 16 (Char.ofNat n)).isSome →
      pathEscapes (Char.ofNat n) = false := by decide
  have hc := hall c.toNat h.lt
  rw [Char.ofNat_toNat] at hc
  exact hc h

/-- What is read from an escaped segment is what the segment stands for. -/
theorem decode?_escapeBy (s : List Char) :
    Percent.decode? (String.ofList (escapeBy pathEscapes s))
      = decodeUtf8? (Percent.octets s) := by
  rw [Percent.decode?, octetsOf_ofList,
    Percent.decodeOctets_escapeBy (fun c => pathEscapes_of_isHex) rfl]

theorem plainDots_of_verbatim {s : List Char} (h : Percent.Verbatim s) : plainDots s = s := by
  fun_induction plainDots s with
  | case1 e l he ih =>
    have hhex : Percent.IsHex e := by rcases he with rfl | rfl <;> exact rfl
    exact absurd (List.infix_append [] ['%', '2', e] l) (h '2' e rfl hhex)
  | case2 e l he ih => rw [ih h.tail]
  | case3 c l _ ih => rw [ih h.tail]
  | case4 => rfl

theorem takeWhile_ne_eq_self_iff {c : Char} {l : List Char} :
    l.takeWhile (· ≠ c) = l ↔ c ∉ l := by
  rw [List.takeWhile_eq_self_iff]
  constructor
  · intro h hc
    simpa using h c hc
  · intro h d hd
    exact decide_eq_true fun heq => h (heq ▸ hd)

theorem written_eq_self_iff {key : List Char} :
    written key = key ↔ clean key = key ∧ '#' ∉ key ∧ '?' ∉ key := by
  rw [← takeWhile_ne_eq_self_iff, ← takeWhile_ne_eq_self_iff]
  constructor
  · intro h
    have houter : key.Sublist ((clean key).takeWhile (· ≠ '#')) := by
      have hsub : (written key).Sublist ((clean key).takeWhile (· ≠ '#')) :=
        List.takeWhile_sublist _
      rwa [h] at hsub
    have hclean : clean key = key :=
      (clean_sublist key).eq_of_length_le (houter.trans (List.takeWhile_sublist _)).length_le
    rw [hclean] at houter
    have hnumber : key.takeWhile (· ≠ '#') = key :=
      (List.takeWhile_sublist _).eq_of_length_le houter.length_le
    refine ⟨hclean, hnumber, ?_⟩
    rwa [written, hclean, hnumber] at h
  · rintro ⟨hclean, hnumber, hquestion⟩
    rw [written, hclean, hnumber, hquestion]

end Url

end Http

end Rendezvous
