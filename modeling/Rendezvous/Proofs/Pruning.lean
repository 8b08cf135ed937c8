/-
Rendezvous/Proofs/Pruning.lean

Drawing takes out what has failed.

Whoever draws from a pool goes on until a candidate shows no failures or nothing is left.
The draws are made one by one (`Drawing`): a number below the size of the generation
draws a candidate, and one that has failed is taken out before the next draw.  A stream of
numbers determines the draws (`exists_drawing`), and any draws within range are those of a
stream (`Drawing.pickFrom_eq`), so the function and the relation say the same.

What a miss does is said once (`Sifted.cons`): the candidate that was drawn goes, and all
others stay in their places.  Hence, whatever the numbers are,

    the generation afterwards  =  that before without the candidates drawn in vain

and since none of these is drawn twice there are at most as many misses as candidates that
show failures, and one more draw.  Which of them were drawn makes no difference to whether
somebody is found: all who show no failures stay until the end.
-/
import Mathlib.Data.List.Basic
import Rendezvous.Client.Pool

namespace Rendezvous.Pool

variable {d : Draws} {used n : Nat} {p p' : Pool} {c : Candidate}

/-! ### Counters -/

/-- The members of a list occur in another as often as they are said to, and nobody else. -/
theorem exists_count (l : List Candidate) (times : Candidate → Nat) :
    ∃ failed : List Candidate, ∀ c, failed.count c = if c ∈ l then times c else 0 := by
  induction l with
  | nil => exact ⟨[], fun c => by simp⟩
  | cons b l ih =>
    obtain ⟨failed, hcount⟩ := ih
    by_cases hb : b ∈ l
    · refine ⟨failed, fun c => ?_⟩
      have hiff : c ∈ b :: l ↔ c ∈ l := by
        rw [List.mem_cons]
        exact or_iff_right_of_imp fun heq => heq ▸ hb
      simp only [hcount, hiff]
    · refine ⟨List.replicate (times b) b ++ failed, fun c => ?_⟩
      rw [List.count_append, hcount]
      by_cases hc : c = b
      · subst hc
        simp [hb]
      · simp [hc, List.count_replicate, Ne.symm hc]

/-- Any counters can be those of a generation. -/
theorem exists_failures (g : Generation) (counter : Candidate → UInt32) :
    ∃ p : Pool, p.current = g ∧ ∀ c ∈ g.candidates, p.failures c = (counter c).toNat := by
  obtain ⟨failed, hcount⟩ := exists_count g.candidates fun c => (counter c).toNat
  refine ⟨⟨g, 1, failed⟩, rfl, fun c hc => ?_⟩
  rw [failures, hcount, if_pos hc]
  exact Nat.mod_eq_of_lt (counter c).toNat_lt

/-! ### One draw -/

theorem drawn_eq_none_iff : p.drawn n = none ↔ p.current.candidates = [] := by
  rw [drawn, List.getElem?_eq_none_iff]
  constructor
  · intro h
    by_contra hne
    exact Nat.not_lt_of_ge h (Nat.mod_lt n (List.length_pos_of_ne_nil hne))
  · intro h
    rw [h]
    exact Nat.zero_le _

theorem isHealthy_iff_failures : p.isHealthy c ↔ p.failures c = 0 := decide_eq_true_iff

theorem pickFrom_of_dry (h : p.current.candidates = []) : pickFrom d used p = ⟨none, p, used⟩ := by
  rw [pickFrom]
  split
  · rfl
  · rename_i c hdrawn
    rw [drawn_eq_none_iff.mpr h] at hdrawn
    cases hdrawn

theorem pickFrom_of_hit (hdrawn : p.drawn (d used) = some c) (hgood : p.failures c = 0) :
    pickFrom d used p = ⟨some c, p, used + 1⟩ := by
  rw [pickFrom]
  split
  · rename_i hnone
    rw [hdrawn] at hnone
    cases hnone
  · rename_i c' hdrawn'
    cases hdrawn.symm.trans hdrawn'
    rw [if_pos (isHealthy_iff_failures.mpr hgood)]

theorem pickFrom_of_miss (hdrawn : p.drawn (d used) = some c) (hbad : p.failures c ≠ 0) :
    pickFrom d used p = pickFrom d (used + 1) (p.prune c) := by
  rw [pickFrom]
  split
  · rename_i hnone
    rw [hdrawn] at hnone
    cases hnone
  · rename_i c' hdrawn'
    cases hdrawn.symm.trans hdrawn'
    exact if_neg fun hgood => hbad (isHealthy_iff_failures.mp hgood)

/-! ### Draws one by one -/

/-- A draw: how many numbers there were to draw from, and which one it was. -/
structure Draw where
  range : Nat
  number : Nat

/-- Draws from a pool until somebody is found or nothing is left, with what they come to
and the pool left behind. -/
inductive Drawing : Pool → List Draw → Option Candidate → Pool → Prop
  /-- Nothing is left, and nothing is drawn. -/
  | dry {p : Pool} (h : p.current.candidates = []) : Drawing p [] none p
  /-- A candidate is drawn that shows no failures. -/
  | hit {p : Pool} {n : Nat} {c : Candidate} (hdrawn : p.current.candidates[n]? = some c)
    (hgood : p.failures c = 0) : Drawing p [⟨p.current.size, n⟩] (some c) p
  /-- A candidate is drawn that has failed, and others are drawn without it. -/
  | miss {p p' : Pool} {n : Nat} {c : Candidate} {made : List Draw} {r : Option Candidate}
    (hdrawn : p.current.candidates[n]? = some c) (hbad : p.failures c ≠ 0)
    (h : Drawing (p.prune c) made r p') : Drawing p (⟨p.current.size, n⟩ :: made) r p'

variable {made : List Draw} {r : Option Candidate}

/-- Numbers are drawn out of ranges that have them. -/
theorem Drawing.in_range (h : Drawing p made r p') : ∀ draw ∈ made, draw.number < draw.range := by
  induction h with
  | dry h => exact nofun
  | hit hdrawn hgood =>
    intro draw hdraw
    rw [List.mem_singleton.mp hdraw]
    exact (List.getElem?_eq_some_iff.mp hdrawn).1
  | miss hdrawn hbad h ih =>
    intro draw hdraw
    rcases List.mem_cons.mp hdraw with rfl | hrest
    · exact (List.getElem?_eq_some_iff.mp hdrawn).1
    · exact ih draw hrest

/-- The draws that a stream of numbers makes. -/
def Follows (d : Draws) (used : Nat) (made : List Draw) : Prop :=
  ∀ k draw, made[k]? = some draw → draw.number = d (used + k) % draw.range

theorem follows_cons {draw : Draw} : Follows d used (draw :: made)
    ↔ draw.number = d used % draw.range ∧ Follows d (used + 1) made := by
  constructor
  · intro h
    refine ⟨h 0 draw rfl, fun k draw' hk => ?_⟩
    rw [Nat.add_assoc, Nat.add_comm 1 k]
    exact h (k + 1) draw' hk
  · rintro ⟨hhead, hrest⟩ (_ | k) draw' hk
    · cases hk
      exact hhead
    · rw [Nat.add_comm k 1, ← Nat.add_assoc]
      exact hrest k draw' hk

/-- **Every stream of numbers makes its draws.** -/
theorem exists_drawing (d : Draws) (used : Nat) (p : Pool) : ∃ made,
    Drawing p made (pickFrom d used p).candidate (pickFrom d used p).pool
      ∧ (pickFrom d used p).draws = used + made.length ∧ Follows d used made := by
  fun_induction pickFrom d used p with
  | case1 used p hnone => exact ⟨[], .dry (drawn_eq_none_iff.mp hnone), rfl, nofun⟩
  | case2 used p c hdrawn hgood =>
    exact ⟨_, .hit hdrawn (isHealthy_iff_failures.mp hgood), rfl, follows_cons.mpr ⟨rfl, nofun⟩⟩
  | case3 used p c hdrawn hbad hshort ih =>
    obtain ⟨made, hmade, hdraws, hfollows⟩ := ih
    refine ⟨_, .miss hdrawn (fun hgood => hbad (isHealthy_iff_failures.mpr hgood)) hmade, ?_,
      follows_cons.mpr ⟨rfl, hfollows⟩⟩
    rw [hdraws, List.length_cons]
    omega

/-- **Any draws are those of a stream** that has their numbers. -/
theorem Drawing.pickFrom_eq (h : Drawing p made r p') (hd : Follows d used made) :
    pickFrom d used p = ⟨r, p', used + made.length⟩ := by
  induction h generalizing used with
  | dry h => exact pickFrom_of_dry h
  | @hit p n c hdrawn hgood =>
    have hnumber : n = d used % p.current.candidates.length := (follows_cons.mp hd).1
    exact pickFrom_of_hit (by rw [drawn, ← hnumber, hdrawn]) hgood
  | @miss p p' n c made r hdrawn hbad h ih =>
    obtain ⟨hnumber, hrest⟩ := follows_cons.mp hd
    have hnumber : n = d used % p.current.candidates.length := hnumber
    rw [pickFrom_of_miss (by rw [drawn, ← hnumber, hdrawn]) hbad, ih hrest, List.length_cons]
    congr 1
    omega

/-- Draws follow the stream of their own numbers. -/
theorem Drawing.exists_follows (h : Drawing p made r p') : ∃ d, Follows d 0 made := by
  -- behind the last draw the stream may go on as it likes
  refine ⟨fun k => (made[k]?.map Draw.number).getD 0, fun k draw hk => ?_⟩
  have hrange := h.in_range draw (List.mem_of_getElem? hk)
  show draw.number = (made[0 + k]?.map Draw.number).getD 0 % draw.range
  rw [Nat.zero_add, hk]
  exact (Nat.mod_eq_of_lt hrange).symm

/-! ### What misses take out -/

/-- Some candidates have been taken out of a pool, all of which show failures; the others
are left as they were. -/
structure Sifted (p : Pool) (out : List Candidate) (p' : Pool) : Prop where
  nodup : out.Nodup
  shown : ∀ c ∈ out, c ∈ p.current.candidates ∧ p.failures c ≠ 0
  left : p'.current.candidates = p.current.candidates.filter (· ∉ out)
  failed : p'.failed = p.failed
  nextId : p'.nextId = p.nextId + out.length

namespace Sifted

variable {out : List Candidate}

theorem refl (p : Pool) : Sifted p [] p where
  nodup := List.nodup_nil
  shown := nofun
  left := by simp
  failed := rfl
  nextId := rfl

/-- **A miss takes out one candidate that shows failures.** -/
theorem cons (hc : c ∈ p.current.candidates) (hbad : p.failures c ≠ 0)
    (h : Sifted (p.prune c) out p') : Sifted p (c :: out) p' where
  nodup := by
    refine List.nodup_cons.mpr ⟨fun hmem => ?_, h.nodup⟩
    -- it is not there any more to be drawn again
    exact of_decide_eq_true (List.mem_filter.mp (h.shown c hmem).1).2 rfl
  shown := by
    intro c' hc'
    rcases List.mem_cons.mp hc' with rfl | hout
    · exact ⟨hc, hbad⟩
    · obtain ⟨hleft, hshown⟩ := h.shown c' hout
      exact ⟨(List.mem_filter.mp hleft).1, hshown⟩
  left := by
    rw [h.left]
    show (p.current.candidates.filter (· ≠ c)).filter (· ∉ out) = _
    rw [List.filter_filter]
    refine List.filter_congr fun c' _ => ?_
    rw [Bool.eq_iff_iff]
    simp [and_comm]
  failed := h.failed
  nextId := by
    rw [h.nextId, List.length_cons, Nat.add_comm out.length 1, ← Nat.add_assoc]
    rfl

theorem sublist (h : Sifted p out p') :
    p'.current.candidates.Sublist p.current.candidates := h.left ▸ List.filter_sublist

theorem nextId_le (h : Sifted p out p') : p.nextId ≤ p'.nextId :=
  h.nextId ▸ Nat.le_add_right ..

/-- Who shows no failures is kept. -/
theorem kept (h : Sifted p out p') (hc : c ∈ p.current.candidates) (hgood : p.failures c = 0) :
    c ∈ p'.current.candidates := by
  rw [h.left, List.mem_filter]
  exact ⟨hc, decide_eq_true fun hout => (h.shown c hout).2 hgood⟩

/-- No more are taken out than show failures. -/
theorem length_le (h : Sifted p out p') :
    out.length ≤ p.current.candidates.countP fun c => p.failures c ≠ 0 := by
  rw [List.countP_eq_length_filter]
  refine h.nodup.length_le_of_subset fun c hc => ?_
  obtain ⟨hmem, hbad⟩ := h.shown c hc
  exact List.mem_filter.mpr ⟨hmem, decide_eq_true hbad⟩

end Sifted

/-- **Draws take out those drawn in vain.**  There was one draw for each of them, and one
more if somebody was found. -/
theorem Drawing.sifted (h : Drawing p made r p') :
    ∃ out, Sifted p out p' ∧ made.length = out.length + r.toList.length := by
  induction h with
  | @dry p h => exact ⟨[], .refl p, rfl⟩
  | @hit p n c hdrawn hgood => exact ⟨[], .refl p, rfl⟩
  | miss hdrawn hbad h ih =>
    obtain ⟨out, hout, hlength⟩ := ih
    refine ⟨_, hout.cons (List.mem_of_getElem? hdrawn) hbad, ?_⟩
    rw [List.length_cons, hlength, List.length_cons]
    omega

/-- What drawing takes out. -/
theorem sifted_pickFrom (d : Draws) (used : Nat) (p : Pool) :
    ∃ out, Sifted p out (pickFrom d used p).pool := by
  obtain ⟨made, hmade, -⟩ := exists_drawing d used p
  obtain ⟨out, hout, -⟩ := hmade.sifted
  exact ⟨out, hout⟩

/-- At most as many draws are in vain as candidates show failures. -/
theorem Drawing.length_le (h : Drawing p made r p') :
    made.length ≤ (p.current.candidates.countP fun c => p.failures c ≠ 0) + 1 := by
  obtain ⟨out, hout, hlength⟩ := h.sifted
  have hfound : r.toList.length ≤ 1 := by
    cases r with
    | none => exact Nat.zero_le 1
    | some c => exact Nat.le_refl 1
  rw [hlength]
  exact Nat.add_le_add hout.length_le hfound

/-- Draws end with a candidate that shows no failures, or with nothing left. -/
theorem Drawing.ends (h : Drawing p made r p') :
    (∃ c ∈ p'.current.candidates, r = some c ∧ p.failures c = 0)
    ∨ r = none ∧ p'.current.candidates = [] := by
  induction h with
  | dry h => exact Or.inr ⟨rfl, h⟩
  | hit hdrawn hgood => exact Or.inl ⟨_, List.mem_of_getElem? hdrawn, rfl, hgood⟩
  | miss hdrawn hbad h ih => exact ih

/-- **Whether somebody is found does not depend on the numbers**: who shows no failures is
there until the end. -/
theorem Drawing.isSome_iff (h : Drawing p made r p') :
    r.isSome ↔ ∃ c ∈ p.current.candidates, p.failures c = 0 := by
  obtain ⟨out, hout, -⟩ := h.sifted
  rcases h.ends with ⟨c, hc, rfl, hgood⟩ | ⟨rfl, hend⟩
  · exact iff_of_true rfl ⟨c, hout.sublist.subset hc, hgood⟩
  · -- who shows no failures would have been left, but nothing is
    refine iff_of_false Bool.false_ne_true ?_
    rintro ⟨c, hc, hgood⟩
    have hkept := hout.kept hc hgood
    rw [hend] at hkept
    cases hkept

/-- **Drawing ends and takes out what has failed, and no more.**

Any counters can be those of a generation; whatever they are, the following holds.  The
draws that a stream of numbers makes out of a pool are at most one more than there are
candidates that show failures, and each is a number out of a range that has it.  What they
leave is the generation as it was, in its order, without some of those that show failures;
no counter changes.  If somebody shows no failures, such a candidate of what is left is
found, whatever the numbers are, and otherwise none is found and nothing is left.  And
whatever numbers within range are drawn one after the other, they are those of a stream. -/
theorem pickHealthy_settles :
    (∀ (g : Generation) (counter : Candidate → UInt32), ∃ p : Pool, p.current = g
      ∧ ∀ c ∈ g.candidates, p.failures c = (counter c).toNat)
    ∧ ∀ p : Pool,
      (∀ d, ∃ made, Drawing p made (p.pickHealthy d).candidate (p.pickHealthy d).pool
        ∧ Follows d 0 made ∧ (p.pickHealthy d).draws = made.length
        ∧ ∀ draw ∈ made, draw.number < draw.range)
      ∧ (∀ made r p', Drawing p made r p' → ∃ d, p.pickHealthy d = ⟨r, p', made.length⟩)
      ∧ (∀ d, (p.pickHealthy d).draws
        ≤ (p.current.candidates.countP fun c => p.failures c ≠ 0) + 1)
      ∧ (∀ d, ∃ out : List Candidate,
        (∀ c ∈ out, c ∈ p.current.candidates ∧ p.failures c ≠ 0)
        ∧ (p.pickHealthy d).pool.current.candidates = p.current.candidates.filter (· ∉ out)
        ∧ (p.pickHealthy d).pool.failed = p.failed)
      ∧ ((∃ c ∈ p.current.candidates, p.failures c = 0) → ∀ d,
        ∃ c ∈ (p.pickHealthy d).pool.current.candidates,
          (p.pickHealthy d).candidate = some c ∧ p.failures c = 0)
      ∧ ((∀ c ∈ p.current.candidates, p.failures c ≠ 0) → ∀ d,
        (p.pickHealthy d).candidate = none
          ∧ (p.pickHealthy d).pool.current.candidates = []) := by
  refine ⟨exists_failures, fun p => ?_⟩
  have hdrawing : ∀ d, ∃ made, Drawing p made (p.pickHealthy d).candidate (p.pickHealthy d).pool
      ∧ (p.pickHealthy d).draws = made.length ∧ Follows d 0 made := by
    intro d
    obtain ⟨made, hmade, hdraws, hfollows⟩ := exists_drawing d 0 p
    exact ⟨made, hmade, hdraws.trans (Nat.zero_add _), hfollows⟩
  refine ⟨fun d => ?_, fun made r p' hmade => ?_, fun d => ?_, fun d => ?_, fun hsome d => ?_,
    fun hall d => ?_⟩
  · obtain ⟨made, hmade, hdraws, hfollows⟩ := hdrawing d
    exact ⟨made, hmade, hfollows, hdraws, hmade.in_range⟩
  · obtain ⟨d, hd⟩ := hmade.exists_follows
    exact ⟨d, by rw [pickHealthy, hmade.pickFrom_eq hd, Nat.zero_add]⟩
  · obtain ⟨made, hmade, hdraws, -⟩ := hdrawing d
    exact hdraws ▸ hmade.length_le
  · obtain ⟨out, hout⟩ := sifted_pickFrom d 0 p
    exact ⟨out, hout.shown, hout.left, hout.failed⟩
  · obtain ⟨made, hmade, -⟩ := hdrawing d
    have hfound := hmade.isSome_iff.mpr hsome
    refine hmade.ends.resolve_right fun hend => ?_
    rw [hend.1] at hfound
    cases hfound
  · obtain ⟨made, hmade, -⟩ := hdrawing d
    refine hmade.ends.resolve_left ?_
    rintro ⟨c, -, hc, -⟩
    obtain ⟨c', hmem, hgood⟩ := hmade.isSome_iff.mp (hc ▸ rfl)
    exact hall c' hmem hgood

end Rendezvous.Pool
