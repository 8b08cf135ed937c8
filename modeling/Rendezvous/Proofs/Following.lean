/-
Rendezvous/Proofs/Following.lean

How a proxy follows the leader.

A proxy looks at the leader again and again.  At each look the engine names a
leader or fails, and the tags that come of it are taken by the substrate or not.
There are four cases (`Look.Comes`):

    no leader is named               nothing is handed over
    the leader is advertised         nothing is handed over
    the leader is new, and refused   the tags stay as they are
    the leader is new, and taken     the node has the tags with this leader

There are no others because a proxy sets no value but the leader: the set that it
would publish is the one published last exactly if that one has the leader already
(`build_setting_eq_iff`).  So a proxy advertises, after any number of looks, the
leader of the last look that settled one (`leader_followed`).
-/
import Rendezvous.Proofs.Changes
import Rendezvous.Proofs.Entrance
import Rendezvous.Proofs.PeerMap

namespace Rendezvous

/-! ### Setting a value -/

namespace Advertised

/-- A configuration in which a changing value is set. -/
def setting (a : Advertised) (k v : String) : Advertised :=
  { a with dynamic := a.dynamic.insert k v }

variable {a : Advertised} {t : TagSet} {k v : String}

theorem build_setting (h : a.build = .ok t) (k v : String) :
    ∃ u, (a.setting k v).build = .ok u :=
  (build_eq_ok (a := a.setting k v) (build_eq_ok_iff.mp h).1).imp fun _ hu => hu.1

/-- A value that is set is advertised. -/
theorem get?_build_setting (hk : k ≠ Tag.checksum) (h : (a.setting k v).build = .ok t) :
    t.get? k = some v := by
  rw [(build_eq_ok_iff.mp h).2, under?, if_neg hk]
  exact value?_of_dynamic (Table.get?_insert_self ..)

/-- **Setting a value makes no difference exactly if it is advertised already.** -/
theorem build_setting_eq_iff (hk : k ≠ Tag.checksum) (h : a.build = .ok t) :
    (a.setting k v).build = .ok t ↔ t.get? k = some v := by
  refine ⟨get?_build_setting hk, fun hv => ?_⟩
  obtain ⟨hnodup, hget⟩ := build_eq_ok_iff.mp h
  rw [← h]
  refine build_congr hnodup hnodup fun j => ?_
  -- only the name of the value could make a difference
  by_cases hj : j = k
  · subst hj
    have hold := hget j
    rw [under?, if_neg hk, hv] at hold
    rw [← hold]
    exact value?_of_dynamic (Table.get?_insert_self ..)
  · rw [value?, show (a.setting k v).dynamic.get? j = a.dynamic.get? j from
      Table.get?_insert_ne _ _ hj]
    rfl

end Advertised

namespace ProxyNode

variable {σ : Type} {S : Substrate σ}

open Publisher (Desk)

/-! ### Looks -/

/-- The tag sets that are handed over at a look: what it leaves with a substrate
that takes them all and keeps them (`followLeader_snd`). -/
def handed (p : Publisher) (leader : Except Error Uuid) : List TagSet :=
  (followLeader p leader (fun t sent => (.ok (), sent ++ [t])) []).2

/-- One look at the leader and what meets it: what the engine says, whether the
substrate refuses what it is handed, and what has happened elsewhere before. -/
structure Look (S : Substrate σ) where
  leader : Except Error Uuid
  refusal : Option Error
  elsewhere : σ → σ
  keeps : ∀ s, S.tags (elsewhere s) = S.tags s

namespace Look

/-- What becomes of tags that are handed over. -/
def send (x : Look S) : Send σ := fun t s =>
  match x.refusal with
  | some e => (.error e, s)
  | none => S.send t s

def perform (x : Look S) (d : Desk σ) : Desk σ :=
  followLeader d.1 x.leader x.send (x.elsewhere d.2)

/-- The tags that are handed over are taken. -/
def Taken (x : Look S) (d : Desk σ) : Prop :=
  ∃ t ∈ handed d.1 x.leader, ∃ s, x.send t (x.elsewhere d.2) = (.ok (), s)

/-- A look settles a leader: the engine names it, and it is advertised already or
what is handed over is taken. -/
def Settles (x : Look S) (d : Desk σ) (id : Uuid) : Prop :=
  x.leader = .ok id ∧ ((∃ t, S.tags d.2 = some t ∧ t.get? Tag.leader = some id.text) ∨ x.Taken d)

/-- A node that has some tags lacks the leader that is named, so others with this
leader are handed over. -/
structure Hands (x : Look S) (d : Desk σ) (t u : TagSet) (id : Uuid) : Prop where
  leader : x.leader = .ok id
  lacks : t.get? Tag.leader ≠ some id.text
  handed : handed d.1 x.leader = [u]
  new : u.get? Tag.leader = some id.text

/-- What comes of a look at a node that has some tags: the tags it has then. -/
inductive Comes (x : Look S) (d : Desk σ) (t : TagSet) : TagSet → Prop
  | unknown {e} (hleader : x.leader = .error e) (hidle : handed d.1 x.leader = []) : Comes x d t t
  | known {id} (hleader : x.leader = .ok id) (hhas : t.get? Tag.leader = some id.text)
    (hidle : handed d.1 x.leader = []) : Comes x d t t
  | refused {id u e s} (hhands : x.Hands d t u id)
    (hsend : x.send u (x.elsewhere d.2) = (.error e, s)) : Comes x d t t
  | taken {id u s} (hhands : x.Hands d t u id)
    (hsend : x.send u (x.elsewhere d.2) = (.ok (), s)) : Comes x d t u

end Look

/-- One look after the other. -/
def looks (d : Desk σ) (xs : List (Look S)) : Desk σ := xs.foldl (fun d x => x.perform d) d

/-- The leader that was settled last. -/
inductive LastSettled (d : Desk σ) : List (Look S) → Uuid → Prop
  | here {xs x id} (h : x.Settles (looks d xs) id) : LastSettled d (xs ++ [x]) id
  | earlier {xs x id} (h : LastSettled d xs id) (hnone : ∀ id', ¬ x.Settles (looks d xs) id') :
    LastSettled d (xs ++ [x]) id

/-- A proxy is advertised with some tags, and has set no value of a configuration
but the leader. -/
structure Leads (S : Substrate σ) (c : Advertised) (d : Desk σ) (t : TagSet) : Prop where
  last : d.1.lastPublished = some t
  tags : S.tags d.2 = some t
  build : d.1.config.build = .ok t
  config : ∃ values, d.1.config = { c with dynamic := values }
    ∧ ∀ k ≠ Tag.leader, values.get? k = c.dynamic.get? k

variable {p : Publisher} {d d₀ : Desk σ} {t t₀ u : TagSet} {id : Uuid} {c : Advertised}
  {x y : Look S} {xs : List (Look S)} {send : Send σ} {s s' : σ}

/-! ### What a look does -/

/-- Whoever refuses tags at a look leaves those of the node. -/
theorem Look.tags_of_refused {e : Error} (x : Look S) (h : x.send t s = (.error e, s')) :
    S.tags s' = S.tags s := by
  rw [Look.send] at h
  split at h
  · cases h
    rfl
  · exact S.tags_of_refused h

theorem Look.tags_of_taken (x : Look S) (h : x.send t s = (.ok (), s')) : S.tags s' = some t := by
  rw [Look.send] at h
  split at h
  · cases h
  · exact S.tags_of_send h

/-- A leader that makes no difference is passed over. -/
theorem followLeader_known (hlast : p.lastPublished = some t)
    (hbuild : (p.config.setting Tag.leader id.text).build = .ok t) (send : Send σ) (s : σ) :
    followLeader p (.ok id) send s = (p, s) :=
  congrArg Prod.snd (Publisher.update_skipped hbuild hlast send s)

/-- One that does is taken with the tags. -/
theorem followLeader_taken (hlast : p.lastPublished ≠ some u)
    (hbuild : (p.config.setting Tag.leader id.text).build = .ok u)
    (hsend : send u s = (.ok (), s')) :
    followLeader p (.ok id) send s = ({ p with
      config := p.config.setting Tag.leader id.text, lastPublished := some u }, s') :=
  congrArg Prod.snd (Publisher.update_taken hbuild hlast hsend)

/-- Tags that are refused leave the publisher as it is. -/
theorem followLeader_refused {e : Error} (hlast : p.lastPublished ≠ some u)
    (hbuild : (p.config.setting Tag.leader id.text).build = .ok u)
    (hsend : send u s = (.error e, s')) : followLeader p (.ok id) send s = (p, s') :=
  congrArg Prod.snd (Publisher.update_refused hbuild hlast hsend)

/-- A leader with which there is no tag set is passed over as well. -/
theorem followLeader_unbuilt {e : Error}
    (hbuild : (p.config.setting Tag.leader id.text).build = .error e) (send : Send σ) (s : σ) :
    followLeader p (.ok id) send s = (p, s) :=
  congrArg Prod.snd (Publisher.update_unbuilt hbuild send s)

theorem handed_of_new (hlast : p.lastPublished ≠ some u)
    (hbuild : (p.config.setting Tag.leader id.text).build = .ok u) :
    handed p (.ok id) = [u] := by
  rw [handed, followLeader_taken hlast hbuild rfl]
  rfl

/-- **What is handed over is all that meets a substrate**, be it taken or refused. -/
theorem followLeader_snd (p : Publisher) (leader : Except Error Uuid) (send : Send σ) (s : σ) :
    (followLeader p leader send s).2
      = (handed p leader).foldl (fun s t => (send t s).2) s := by
  rcases leader with e | id
  · rfl
  rcases hbuild : (p.config.setting Tag.leader id.text).build with e | u
  · rw [handed, followLeader_unbuilt hbuild, followLeader_unbuilt hbuild]
    rfl
  by_cases hlast : p.lastPublished = some u
  · rw [handed, followLeader_known hlast hbuild, followLeader_known hlast hbuild]
    rfl
  · rw [handed_of_new hlast hbuild, List.foldl_cons, List.foldl_nil]
    rcases hsend : send u s with ⟨e | _, s'⟩
    · rw [followLeader_refused hlast hbuild hsend]
    · rw [followLeader_taken hlast hbuild hsend]

namespace Leads

/-- Apart from the leader and the checksum the tags are those of the configuration. -/
theorem get?_eq (h : Leads S c d t) (hc : c.build = .ok t₀) {k : String} (hleader : k ≠ Tag.leader)
    (hchecksum : k ≠ Tag.checksum) : t.get? k = t₀.get? k := by
  obtain ⟨values, hconfig, hvalues⟩ := h.config
  rw [(Advertised.build_eq_ok_iff.mp h.build).2, (Advertised.build_eq_ok_iff.mp hc).2,
    Advertised.under?, Advertised.under?, if_neg hchecksum, if_neg hchecksum, hconfig,
    Advertised.value?, hvalues k hleader]
  rfl

/-- What happens elsewhere does not touch the node. -/
theorem elsewhere (h : Leads S c d t) (hkeeps : S.tags s = S.tags d.2) : Leads S c (d.1, s) t :=
  ⟨h.last, hkeeps.trans h.tags, h.build, h.config⟩

/-- A leader that is taken is set. -/
theorem set (h : Leads S c d t)
    (hbuild : (d.1.config.setting Tag.leader id.text).build = .ok u) (htags : S.tags s = some u) :
    Leads S c ({ d.1 with
      config := d.1.config.setting Tag.leader id.text, lastPublished := some u }, s) u := by
  obtain ⟨values, hconfig, hvalues⟩ := h.config
  refine ⟨rfl, htags, hbuild, values.insert Tag.leader id.text, ?_, fun k hk => ?_⟩
  · show d.1.config.setting _ _ = _
    rw [hconfig]
    rfl
  · rw [Table.get?_insert_ne _ _ hk, hvalues k hk]

end Leads

/-- **One look** comes out in one of four ways, and the proxy goes on. -/
theorem comes_perform (h : Leads S c d t) (x : Look S) :
    ∃ u, x.Comes d t u ∧ Leads S c (x.perform d) u := by
  have hchecksum : Tag.leader ≠ Tag.checksum := by decide
  have helsewhere : Leads S c (d.1, x.elsewhere d.2) t := h.elsewhere (x.keeps d.2)
  rcases hleader : x.leader with e | id
  · refine ⟨t, .unknown hleader ?_, ?_⟩
    · rw [hleader]
      rfl
    · rw [Look.perform, hleader]
      exact helsewhere
  obtain ⟨u, hu⟩ := Advertised.build_setting h.build Tag.leader id.text
  have hsame := Advertised.build_setting_eq_iff (v := id.text) hchecksum h.build
  by_cases hhas : t.get? Tag.leader = some id.text
  · have hbuild := hsame.mpr hhas
    refine ⟨t, .known hleader hhas ?_, ?_⟩
    · rw [hleader, handed, followLeader_known h.last hbuild]
    · rw [Look.perform, hleader, followLeader_known h.last hbuild]
      exact helsewhere
  · -- the set is not the one published last, so it is handed over
    have hnew : d.1.lastPublished ≠ some u := by
      rw [h.last]
      rintro ⟨⟩
      exact hhas (hsame.mp hu)
    have hhands : x.Hands d t u id := ⟨hleader, hhas, hleader ▸ handed_of_new hnew hu,
      Advertised.get?_build_setting hchecksum hu⟩
    rcases hsend : x.send u (x.elsewhere d.2) with ⟨e | _, s'⟩
    · refine ⟨t, .refused hhands hsend, ?_⟩
      rw [Look.perform, hleader, followLeader_refused hnew hu hsend]
      exact helsewhere.elsewhere (x.tags_of_refused hsend)
    · refine ⟨u, .taken hhands hsend, ?_⟩
      rw [Look.perform, hleader, followLeader_taken hnew hu hsend]
      exact h.set hu (x.tags_of_taken hsend)

theorem Look.Hands.taken_iff (h : x.Hands d t u id) :
    x.Taken d ↔ ∃ s, x.send u (x.elsewhere d.2) = (.ok (), s) := by
  rw [Look.Taken, h.handed]
  simp only [List.mem_singleton, exists_eq_left]

namespace Look.Comes

/-- Tags are handed over exactly if a leader is named that is not advertised. -/
theorem handed_ne_nil_iff (h : x.Comes d t u) : handed d.1 x.leader ≠ []
    ↔ ∃ id, x.leader = .ok id ∧ t.get? Tag.leader ≠ some id.text := by
  cases h with
  | unknown hleader hidle =>
    refine ⟨fun hne => absurd hidle hne, ?_⟩
    rintro ⟨id, hid, -⟩
    rw [hleader] at hid
    cases hid
  | known hleader hhas hidle =>
    refine ⟨fun hne => absurd hidle hne, ?_⟩
    rintro ⟨id, hid, hlacks⟩
    rw [hleader] at hid
    cases hid
    exact absurd hhas hlacks
  | refused hhands | taken hhands =>
    rw [hhands.handed]
    exact ⟨fun _ => ⟨_, hhands.leader, hhands.lacks⟩, fun _ => List.cons_ne_nil _ _⟩

/-- What is handed over has the leader that is named, and it is handed over once. -/
theorem of_handed (h : x.Comes d t u) : (handed d.1 x.leader).length ≤ 1
    ∧ ∀ w ∈ handed d.1 x.leader, ∃ id, x.leader = .ok id ∧ w.get? Tag.leader = some id.text := by
  cases h with
  | unknown _ hidle | known _ _ hidle =>
    rw [hidle]
    exact ⟨Nat.zero_le 1, nofun⟩
  | refused hhands | taken hhands =>
    rw [hhands.handed]
    refine ⟨Nat.le_refl 1, fun w hw => ?_⟩
    rw [List.mem_singleton.mp hw]
    exact ⟨_, hhands.leader, hhands.new⟩

/-- A look settles no leader and leaves the tags, or it settles one and the node has it. -/
theorem settles (h : x.Comes d t u) (htags : S.tags d.2 = some t) :
    (u = t ∧ ∀ id, ¬ x.Settles d id)
      ∨ ∃ id, x.Settles d id ∧ u.get? Tag.leader = some id.text
        ∧ ∀ id', x.Settles d id' → id' = id := by
  cases h with
  | unknown hleader hidle =>
    refine Or.inl ⟨rfl, ?_⟩
    rintro id ⟨hid, -⟩
    rw [hleader] at hid
    cases hid
  | @known id hleader hhas hidle =>
    refine Or.inr ⟨id, ⟨hleader, Or.inl ⟨t, htags, hhas⟩⟩, hhas, ?_⟩
    rintro id' ⟨hid', -⟩
    exact Except.ok.inj (hid'.symm.trans hleader)
  | @refused id w e s hhands hsend =>
    refine Or.inl ⟨rfl, ?_⟩
    rintro id' ⟨hid', ⟨t', ht', hhas⟩ | htaken⟩
    · obtain rfl : id' = id := Except.ok.inj (hid'.symm.trans hhands.leader)
      obtain rfl : t' = t := Option.some.inj (ht'.symm.trans htags)
      exact hhands.lacks hhas
    · obtain ⟨s, hs⟩ := hhands.taken_iff.mp htaken
      rw [hsend] at hs
      cases hs
  | @taken id w s hhands hsend =>
    refine Or.inr ⟨id, ⟨hhands.leader, Or.inr (hhands.taken_iff.mpr ⟨s, hsend⟩)⟩, hhands.new, ?_⟩
    rintro id' ⟨hid', -⟩
    exact Except.ok.inj (hid'.symm.trans hhands.leader)

end Look.Comes

/-! ### Any number of looks -/

theorem looks_concat (d : Desk σ) (xs : List (Look S)) (x : Look S) :
    looks d (xs ++ [x]) = x.perform (looks d xs) := by
  rw [looks, List.foldl_append]
  rfl

theorem looks_append (d : Desk σ) (xs ys : List (Look S)) :
    looks d (xs ++ ys) = looks (looks d xs) ys := List.foldl_append ..

theorem lastSettled_concat_iff : LastSettled d (xs ++ [x]) id ↔
    x.Settles (looks d xs) id ∨ LastSettled d xs id ∧ ∀ id', ¬ x.Settles (looks d xs) id' := by
  constructor
  · intro h
    -- both rules end in a last look, which is the last one of this list
    generalize hys : xs ++ [x] = ys at h
    cases h with
    | here h =>
      obtain ⟨rfl, hx⟩ := List.append_inj' hys rfl
      cases hx
      exact Or.inl h
    | earlier h hnone =>
      obtain ⟨rfl, hx⟩ := List.append_inj' hys rfl
      cases hx
      exact Or.inr ⟨h, hnone⟩
  · rintro (h | ⟨h, hnone⟩)
    · exact .here h
    · exact .earlier h hnone

theorem not_lastSettled_nil : ¬ LastSettled d ([] : List (Look S)) id := by
  intro h
  generalize hys : ([] : List (Look S)) = ys at h
  cases h <;> simp at hys

/-- **After any number of looks** the proxy advertises what was settled last. -/
theorem leads_looks (h : Leads S c d t₀) (hnone : t₀.get? Tag.leader = none)
    (xs : List (Look S)) : ∃ t, Leads S c (looks d xs) t
      ∧ ∀ v, t.get? Tag.leader = some v ↔ ∃ id, LastSettled d xs id ∧ v = id.text := by
  induction xs using List.reverseRecOn with
  | nil =>
    refine ⟨t₀, h, fun v => ?_⟩
    rw [hnone]
    refine ⟨nofun, ?_⟩
    rintro ⟨id, hid, -⟩
    exact absurd hid not_lastSettled_nil
  | append_singleton xs x ih =>
    obtain ⟨t, hleads, hlast⟩ := ih
    obtain ⟨u, hcomes, hleads'⟩ := comes_perform hleads x
    refine ⟨u, looks_concat d xs x ▸ hleads', fun v => ?_⟩
    simp only [lastSettled_concat_iff]
    -- either nothing is settled and the tags stay, or the node has what is settled now
    rcases hcomes.settles hleads.tags with ⟨rfl, hidle⟩ | ⟨id, hid, hget, hunique⟩
    · rw [hlast v]
      simp only [hidle, not_false_eq_true, implies_true, and_true, false_or]
    · rw [hget]
      constructor
      · rintro ⟨⟩
        exact ⟨id, Or.inl hid, rfl⟩
      · rintro ⟨id', hid' | ⟨-, hidle⟩, rfl⟩
        · rw [hunique id' hid']
        · exact absurd hid (hidle id)

/-- A leader that is not advertised is not advertised as long as it is not named. -/
theorem leads_unnamed (h : Leads S c d t) (hlacks : t.get? Tag.leader ≠ some id.text)
    (hxs : ∀ x ∈ xs, x.leader ≠ .ok id) :
    ∃ u, Leads S c (looks d xs) u ∧ u.get? Tag.leader ≠ some id.text := by
  induction xs generalizing d t with
  | nil => exact ⟨t, h, hlacks⟩
  | cons x rest ih =>
    obtain ⟨u, hcomes, hleads⟩ := comes_perform h x
    refine ih hleads ?_ fun z hz => hxs z (List.mem_cons_of_mem _ hz)
    -- no leader gets into the tags but the one that is named
    cases hcomes with
    | unknown | known | refused => exact hlacks
    | @taken id' u s hhands =>
      rw [hhands.new]
      intro hsame
      have hid : id' = id := Uuid.text_injective (Option.some.inj hsame)
      exact hxs x List.mem_cons_self (hid ▸ hhands.leader)

/-! ### The leader of a proxy -/

/-- What a proxy that was first published with some tags has come to after some
looks, and what it does next. -/
structure Followed (d₀ : Desk σ) (t₀ : TagSet) (xs : List (Look S)) (t : TagSet) : Prop where
  /-- The node has a set of tags that unseals. -/
  tags : S.tags (looks d₀ xs).2 = some t
  unseals : ∃ rest, t.unsealed = .ok rest
  /-- All tags but the leader and the checksum are as they were first published. -/
  others : ∀ k, k ≠ Tag.leader → k ≠ Tag.checksum → t.get? k = t₀.get? k
  /-- The leader is the one that was settled last; there is none if none was. -/
  leader : ∀ v, t.get? Tag.leader = some v ↔ ∃ id, LastSettled d₀ xs id ∧ v = id.text
  /-- The next look hands tags over exactly if it finds a leader that is not
  advertised, and then one set with that leader. -/
  next : ∀ x : Look S, (handed (looks d₀ xs).1 x.leader ≠ []
      ↔ ∃ id, x.leader = .ok id ∧ t.get? Tag.leader ≠ some id.text)
    ∧ (handed (looks d₀ xs).1 x.leader).length ≤ 1
    ∧ ∀ u ∈ handed (looks d₀ xs).1 x.leader,
      ∃ id, x.leader = .ok id ∧ u.get? Tag.leader = some id.text
  /-- If they are not taken, the next look that finds the same leader hands tags
  over again. -/
  again : ∀ (x y : Look S) (between : List (Look S)) (id : Uuid), x.leader = .ok id →
    handed (looks d₀ xs).1 x.leader ≠ [] → ¬ x.Taken (looks d₀ xs) →
    (∀ z ∈ between, z.leader ≠ .ok id) → y.leader = .ok id →
    handed (looks d₀ (xs ++ x :: between)).1 y.leader ≠ []

/-- What is not taken leaves the leader unadvertised. -/
theorem Leads.again (h : Leads S c d t) (hx : x.leader = .ok id) (hne : handed d.1 x.leader ≠ [])
    (hrefused : ¬ x.Taken d) {between : List (Look S)} (hbetween : ∀ z ∈ between, z.leader ≠ .ok id)
    (hy : y.leader = .ok id) : handed (looks d (x :: between)).1 y.leader ≠ [] := by
  obtain ⟨u, hcomes, hleads⟩ := comes_perform h x
  have hlacks : u.get? Tag.leader ≠ some id.text := by
    obtain ⟨id', hid', hlacks⟩ := hcomes.handed_ne_nil_iff.mp hne
    obtain rfl : id' = id := Except.ok.inj (hid'.symm.trans hx)
    cases hcomes with
    | unknown | known | refused => exact hlacks
    | taken hhands hsend => exact absurd (hhands.taken_iff.mpr ⟨_, hsend⟩) hrefused
  obtain ⟨w, hleads', hlacks'⟩ := leads_unnamed hleads hlacks hbetween
  obtain ⟨_, hcomes', -⟩ := comes_perform hleads' y
  exact hcomes'.handed_ne_nil_iff.mpr ⟨id, hy, hlacks'⟩

/-- A proxy that has started leads with what it has published, without a leader. -/
theorem leads_start {settings : ProxySettings} {reconciled : Except Error Snapshot}
    {listen : Listen} {v v' : Volume} {node : ProxyNode}
    (hstart : start settings reconciled listen S.send v s = (.ok node, v', s')) :
    ∃ c t, c.build = .ok t ∧ Leads S c (node.publisher, s') t ∧ t.get? Tag.leader = none := by
  obtain ⟨snapshot, names, addr, u, p, -, -, -, hpublish, rfl⟩ := start_eq_ok_iff.mp hstart
  obtain ⟨t, ht, hsend, rfl⟩ := Publisher.exists_of_publish hpublish
  have hnone : t.get? Tag.leader = none := by
    rw [(Advertised.build_eq_ok_iff.mp ht).2, Advertised.under?, if_neg (by decide),
      Advertised.value?, show (publisherAt settings addr).config = advertised settings addr
        from rfl, get?_ports_advertised]
    rfl
  exact ⟨_, t, ht, ⟨rfl, S.tags_of_send hsend, ht, _, rfl, fun _ _ => rfl⟩, hnone⟩

/-- **A proxy advertises the leader that was settled last.**  Once it has started
it may look at the leader any number of times, find one or none, and have its tags
taken or refused.  All the time it has tags that unseal, with the leader that was
settled last and everything else as at first.  It hands tags over exactly when it
finds a leader that is not advertised, and does so again if they are refused. -/
theorem leader_followed (S : Substrate σ) {settings : ProxySettings}
    {reconciled : Except Error Snapshot} {listen : Listen} {v v' : Volume} {s s' : σ}
    {node : ProxyNode}
    (hstart : start settings reconciled listen S.send v s = (.ok node, v', s')) :
    ∃ t₀, S.tags s' = some t₀ ∧
      ∀ xs : List (Look S), ∃ t, Followed (node.publisher, s') t₀ xs t := by
  obtain ⟨c, t₀, hc, hleads₀, hnone⟩ := leads_start hstart
  refine ⟨t₀, hleads₀.tags, fun xs => ?_⟩
  obtain ⟨t, hleads, hlast⟩ := leads_looks hleads₀ hnone xs
  have hsealed : t.unsealed = .ok t.bare :=
    TagSet.unsealed_eq_ok_iff.mpr ⟨rfl, Advertised.build_isSealed hleads.build⟩
  refine ⟨t, hleads.tags, ⟨t.bare, hsealed⟩, fun k => hleads.get?_eq hc, hlast, fun x => ?_, ?_⟩
  · obtain ⟨u, hcomes, -⟩ := comes_perform hleads x
    exact ⟨hcomes.handed_ne_nil_iff, hcomes.of_handed⟩
  · intro x y between id hx hne hrefused hbetween hy
    rw [looks_append]
    exact hleads.again hx hne hrefused hbetween hy

/-! ### The gateway follows -/

/-- Boards take the tags of a node that they know. -/
theorem exists_send_ofBoard {node : String} {b : Board}
    (h : (Substrate.ofBoard node).tags b = some t) (u : TagSet) :
    ∃ b', (Substrate.ofBoard node).send u b = (.ok (), b') := by
  obtain ⟨m, hm, -⟩ := Option.map_eq_some_iff.mp h
  exact ⟨_, Board.publishTags_known hm u⟩

/-- A look at a board, where nothing else happens. -/
def lookAt (leader : Except Error Uuid) (refusal : Option Error) : Look (Substrate.ofBoard "p") :=
  ⟨leader, refusal, fun b => b, fun _ => rfl⟩

/-- The board is down at the first look of the gateway and takes the leader at the
second. -/
theorem leader_followed_gateway : ∃ node v b,
    start gateway (.ok Snapshot.lone) (listenAt 8080) (Substrate.ofBoard "p").send gatewayDisk
        gatewayBoard = (.ok node, v, b)
      ∧ ∃ t, (Substrate.ofBoard "p").tags (looks (node.publisher, b)
          [lookAt (.ok Uuid.nil) (some (.gossip (.publish "down"))), lookAt (.ok Uuid.nil) none]).2
          = some t ∧ t.get? Tag.leader = some Uuid.nil.text := by
  obtain ⟨node, v, b, hstart⟩ := gateway_starts
  obtain ⟨t₀, -, hfollowed⟩ := leader_followed (Substrate.ofBoard "p") hstart
  let down := lookAt (.ok Uuid.nil) (some (.gossip (.publish "down")))
  let up := lookAt (.ok Uuid.nil) none
  obtain ⟨t₁, h₁⟩ := hfollowed [down]
  obtain ⟨t₂, h₂⟩ := hfollowed ([down] ++ [up])
  refine ⟨node, v, b, hstart, t₂, h₂.tags, (h₂.leader _).mpr ⟨Uuid.nil, .here ⟨rfl, ?_⟩, rfl⟩⟩
  by_cases hhas : t₁.get? Tag.leader = some Uuid.nil.text
  · exact Or.inl ⟨t₁, h₁.tags, hhas⟩
  · obtain ⟨u, hu⟩ := List.exists_mem_of_ne_nil _ ((h₁.next up).1.mpr ⟨Uuid.nil, rfl, hhas⟩)
    obtain ⟨b', hb'⟩ := exists_send_ofBoard h₁.tags u
    exact Or.inr ⟨u, hu, b', hb'⟩

end ProxyNode

end Rendezvous
