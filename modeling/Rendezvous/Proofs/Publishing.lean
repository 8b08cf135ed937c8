/-
Rendezvous/Proofs/Publishing.lean

A publisher and the substrate it publishes to.

The publisher of a node is the only one that replaces the node's tags.  It
remembers the tag set it has published last and skips a change that would make
the same set, without asking the substrate.  That this is safe rests on one
invariant of all runs (`InStep`): what was published last is what the node has,
and what the configuration makes.

Calls may fail, because a configuration has no tag set or because the substrate
refuses it.  What can come of a call is said once (`Call.Comes`): whatever fails,
the publisher keeps its configuration and what it has published last, and the
substrate is as the refusal has left it.  Between calls the substrate may change
in any way that leaves the tags of the node alone.
-/
import Rendezvous.Gossip.Board
import Rendezvous.Proofs.Agent
import Rendezvous.Proofs.Outcome
import Rendezvous.Proofs.Publisher

namespace Rendezvous

/-! ### Substrates -/

namespace Board

variable {b b' : Board} {node : String} {m : Member} {t : TagSet} {e : Error}

/-- A board takes the tags of a node that it knows. -/
theorem publishTags_known (h : b.members.get? node = some m) (t : TagSet) :
    b.publishTags node t
      = (.ok (), { b with members := b.members.insert node { m with tags := t } }) := by
  simp only [publishTags, change, h]

/-- Those of any other are refused, before anything has changed. -/
theorem publishTags_unknown (h : b.members.get? node = none) (t : TagSet) :
    b.publishTags node t = (.error (.unknownNode node), b) := by
  simp only [publishTags, change, h]

theorem tagsOf_of_taken (h : b.publishTags node t = (.ok (), b')) : b'.tagsOf node = some t := by
  rcases hm : b.members.get? node with _ | m
  · rw [publishTags_unknown hm] at h
    cases h
  · rw [publishTags_known hm] at h
    cases h
    rw [tagsOf, Table.get?_insert_self]
    rfl

theorem eq_of_refused (h : b.publishTags node t = (.error e, b')) : b' = b := by
  rcases hm : b.members.get? node with _ | m
  · rw [publishTags_unknown hm] at h
    cases h
    rfl
  · rw [publishTags_known hm] at h
    cases h

end Board

/-- A substrate as the publisher of one node meets it: the tags of the node and
a way to replace them.  Tags that are refused leave those that were there. -/
structure Substrate (σ : Type) where
  tags : σ → Option TagSet
  send : Send σ
  tags_of_send : ∀ {t s s'}, send t s = (.ok (), s') → tags s' = some t
  tags_of_refused : ∀ {t s e s'}, send t s = (.error e, s') → tags s' = tags s

namespace Substrate

variable {σ : Type}

/-- A refusal leaves nothing behind, be it with the node or elsewhere. -/
def Steady (S : Substrate σ) : Prop := ∀ t s e s', S.send t s = (.error e, s') → s' = s

/-- A board, for one of its nodes. -/
def ofBoard (node : String) : Substrate Board where
  tags b := b.tagsOf node
  send t b := b.publishTags node t
  tags_of_send := Board.tagsOf_of_taken
  tags_of_refused h := congrArg (fun b => b.tagsOf node) (Board.eq_of_refused h)

/-- An agent, for a node that is its own or is not. -/
def ofAgent (node : String) : Substrate Agent where
  tags a := if node = a.name then some a.own.tags else none
  send t a := a.publishTags node t
  tags_of_send := by
    intro t a a' h
    by_cases hname : node = a.name
    · rw [Agent.publishTags_own hname] at h
      cases h
      exact if_pos hname
    · rw [Agent.publishTags_other hname] at h
      cases h
  tags_of_refused h := by rw [Agent.eq_of_refused h]

/-- Neither a board nor an agent changes before it refuses. -/
theorem steady_ofBoard (node : String) : (ofBoard node).Steady :=
  fun _ _ _ _ => Board.eq_of_refused

theorem steady_ofAgent (node : String) : (ofAgent node).Steady :=
  fun _ _ _ _ => Agent.eq_of_refused

/-- A substrate that takes nothing while it is down, and counts what it has not
taken. -/
def faulty (S : Substrate σ) : Substrate (Bool × Nat × σ) where
  tags s := S.tags s.2.2
  send t s :=
    if s.1 then (.error (.gossip (.publish "the substrate is down")), s.1, s.2.1 + 1, s.2.2)
    else
      let (r, s') := S.send t s.2.2
      (r, s.1, s.2.1, s')
  tags_of_send := by
    intro t s s' h
    split at h
    · cases h
    · rcases hsend : S.send t s.2.2 with ⟨r, s₂⟩
      rw [hsend] at h
      cases h
      exact S.tags_of_send hsend
  tags_of_refused := by
    intro t s e s' h
    split at h
    · cases h
      rfl
    · rcases hsend : S.send t s.2.2 with ⟨r, s₂⟩
      rw [hsend] at h
      cases h
      exact S.tags_of_refused hsend

end Substrate

/-! ### One call -/

theorem Advertised.build_isSealed {a : Advertised} {t : TagSet} (h : a.build = .ok t) :
    t.IsSealed := by
  obtain ⟨tags, -, rfl⟩ := Except.map_eq_ok_iff.mp h
  exact tags.isSealed_sealed

namespace Publisher

variable {σ : Type} {p : Publisher} {send : Send σ} {s s' : σ} {t : TagSet} {e : Error}
  {change : Advertised → Advertised}

theorem publish_unbuilt (hbuild : p.config.build = .error e) (send : Send σ) (s : σ) :
    p.publish send s = (.error e, p, s) := by
  simp only [publish, hbuild]

theorem publish_refused (hbuild : p.config.build = .ok t) (hsend : send t s = (.error e, s')) :
    p.publish send s = (.error e, p, s') := by
  simp only [publish, hbuild, hsend]

theorem publish_taken (hbuild : p.config.build = .ok t) (hsend : send t s = (.ok (), s')) :
    p.publish send s = (.ok t, { p with lastPublished := some t }, s') := by
  simp only [publish, hbuild, hsend]

theorem update_unbuilt (hbuild : (change p.config).build = .error e) (send : Send σ) (s : σ) :
    p.update change send s = (.error e, p, s) := by
  simp only [update, hbuild]

/-- A change that makes the set published last does not reach the substrate. -/
theorem update_skipped (hbuild : (change p.config).build = .ok t)
    (hlast : p.lastPublished = some t) (send : Send σ) (s : σ) :
    p.update change send s = (.ok false, p, s) := by
  simp only [update, hbuild, hlast, if_true]

theorem update_refused (hbuild : (change p.config).build = .ok t)
    (hlast : p.lastPublished ≠ some t) (hsend : send t s = (.error e, s')) :
    p.update change send s = (.error e, p, s') := by
  simp only [update, hbuild, hlast, if_false, hsend]

theorem update_taken (hbuild : (change p.config).build = .ok t)
    (hlast : p.lastPublished ≠ some t) (hsend : send t s = (.ok (), s')) :
    p.update change send s
      = (.ok true, { p with config := change p.config, lastPublished := some t }, s') := by
  simp only [update, hbuild, hlast, if_false, hsend]

/-- What a publisher can be asked for. -/
inductive Call where
  | publish
  | update (change : Advertised → Advertised)
  | setDynamic (tag value : String)

/-- The configuration that a call wants to have advertised. -/
def Call.wanted : Call → Advertised → Advertised
  | publish, a => a
  | update change, a => change a
  | setDynamic tag value, a => { a with dynamic := a.dynamic.insert tag value }

/-- What can come of a call: its result, and the publisher and the substrate as it
leaves them. -/
inductive Call.Comes (send : Send σ) (p : Publisher) (s : σ) (c : Call) :
    Except Error Bool × Desk σ → Prop
  | unbuilt {e : Error} (hbuild : (c.wanted p.config).build = .error e) :
    Comes send p s c (.error e, p, s)
  | skipped {t : TagSet} (hbuild : (c.wanted p.config).build = .ok t) (hcall : c ≠ .publish)
      (hlast : p.lastPublished = some t) :
    Comes send p s c (.ok false, p, s)
  | refused {t : TagSet} {e : Error} {s' : σ} (hbuild : (c.wanted p.config).build = .ok t)
      (hnew : c = .publish ∨ p.lastPublished ≠ some t) (hsend : send t s = (.error e, s')) :
    Comes send p s c (.error e, p, s')
  | taken {t : TagSet} {s' : σ} (hbuild : (c.wanted p.config).build = .ok t)
      (hnew : c = .publish ∨ p.lastPublished ≠ some t) (hsend : send t s = (.ok (), s')) :
    Comes send p s c
      (.ok true, { p with config := c.wanted p.config, lastPublished := some t }, s')

theorem comes_publish {r : Except Error TagSet} {d : Desk σ} (h : p.publish send s = (r, d)) :
    Call.publish.Comes send p s (r.map fun _ => true, d) := by
  rcases hbuild : p.config.build with e | t
  · rw [publish_unbuilt hbuild] at h
    cases h
    exact .unbuilt hbuild
  rcases hsend : send t s with ⟨e | _, s'⟩
  · rw [publish_refused hbuild hsend] at h
    cases h
    exact .refused hbuild (Or.inl rfl) hsend
  · rw [publish_taken hbuild hsend] at h
    cases h
    exact .taken hbuild (Or.inl rfl) hsend

/-- What was published has been taken by the substrate. -/
theorem exists_of_publish {p' : Publisher} (h : p.publish send s = (.ok t, p', s')) :
    ∃ u, p.config.build = .ok u ∧ send u s = (.ok (), s')
      ∧ p' = { p with lastPublished := some u } := by
  have hcomes : Call.publish.Comes send p s (.ok true, p', s') := comes_publish h
  cases hcomes with
  | taken hbuild hnew hsend => exact ⟨_, hbuild, hsend, rfl⟩

/-- Both calls that change the configuration come out alike. -/
theorem comes_update {c : Call} (hcall : c ≠ .publish) (send : Send σ) (p : Publisher) (s : σ) :
    c.Comes send p s (p.update c.wanted send s) := by
  rcases hbuild : (c.wanted p.config).build with e | t
  · rw [update_unbuilt hbuild]
    exact .unbuilt hbuild
  by_cases hlast : p.lastPublished = some t
  · rw [update_skipped hbuild hlast]
    exact .skipped hbuild hcall hlast
  rcases hsend : send t s with ⟨e | _, s'⟩
  · rw [update_refused hbuild hlast hsend]
    exact .refused hbuild (Or.inr hlast) hsend
  · rw [update_taken hbuild hlast hsend]
    exact .taken hbuild (Or.inr hlast) hsend

/-! ### Runs -/

/-- Carry out a call: whether it has published anything or why it has failed, and
how things stand then. -/
def Call.perform (S : Substrate σ) (d : Desk σ) : Call → Except Error Bool × Desk σ
  | publish =>
    let (r, d) := d.1.publish S.send d.2
    (r.map fun _ => true, d)
  | update change => d.1.update change S.send d.2
  | setDynamic tag value => d.1.setDynamic tag value S.send d.2

/-- What can happen next: a call, or a change of the substrate elsewhere. -/
inductive Event (S : Substrate σ) where
  | call (c : Call)
  | elsewhere (change : σ → σ) (keeps : ∀ s, S.tags (change s) = S.tags s)

def step {S : Substrate σ} (d : Desk σ) : Event S → Desk σ
  | .call c => (c.perform S d).2
  | .elsewhere change _ => (d.1, change d.2)

/-- One event after the other. -/
def run {S : Substrate σ} (d : Desk σ) (events : List (Event S)) : Desk σ := events.foldl step d

/-- What was published last is sealed, it is what the node has, and what the
configuration makes. -/
def InStep (S : Substrate σ) (d : Desk σ) : Prop :=
  ∀ t, d.1.lastPublished = some t →
    S.tags d.2 = some t ∧ d.1.config.build = .ok t ∧ ∃ rest, t.unsealed = .ok rest

/-- What the outcome of a call says, and what the call has done to the publisher
and its substrate. -/
structure Accounted (S : Substrate σ) (d : Desk σ) (c : Call) (r : Except Error Bool × Desk σ) :
    Prop where
  /-- A call that fails leaves the publisher and the tags of the node.  There is no
  tag set, and the substrate has not been touched, or it has refused the set and is
  as it was left by that. -/
  failed : ∀ e, r.1 = .error e → r.2.1 = d.1 ∧ S.tags r.2.2 = S.tags d.2
    ∧ ((c.wanted d.1.config).build = .error e ∧ r.2.2 = d.2
      ∨ ∃ t, (c.wanted d.1.config).build = .ok t ∧ S.send t d.2 = (.error e, r.2.2))
  /-- So it leaves everything as it was if refusals do. -/
  restored : S.Steady → ∀ e, r.1 = .error e → r.2 = d
  /-- A call that succeeds leaves the node with the tag set that was wanted; it
  has published unless this is what was published last. -/
  done : ∀ b, r.1 = .ok b → ∃ t, (c.wanted d.1.config).build = .ok t ∧ S.tags r.2.2 = some t
    ∧ (b = true ↔ c = .publish ∨ d.1.lastPublished ≠ some t)
  /-- To publish is to hand the set over, once, and then to keep the configuration. -/
  published : r.1 = .ok true → ∃ t, (c.wanted d.1.config).build = .ok t
    ∧ S.send t d.2 = (.ok (), r.2.2)
    ∧ r.2.1 = { d.1 with config := c.wanted d.1.config, lastPublished := some t }
  /-- A call that has not published has done nothing. -/
  skipped : r.1 = .ok false → r.2 = d

variable {S : Substrate σ} {d : Desk σ} {c : Call} {r : Except Error Bool × Desk σ}

theorem comes_perform (S : Substrate σ) (d : Desk σ) (c : Call) :
    c.Comes S.send d.1 d.2 (c.perform S d) := by
  cases c with
  | publish => exact comes_publish rfl
  | update change => exact comes_update (c := .update change) nofun ..
  | setDynamic tag value => exact comes_update (c := .setDynamic tag value) nofun ..

theorem Call.Comes.accounted (hcomes : c.Comes S.send d.1 d.2 r) (h : InStep S d) :
    Accounted S d c r := by
  cases hcomes with
  | @unbuilt e hbuild =>
    refine ⟨?_, fun _ _ _ => rfl, nofun, nofun, nofun⟩
    rintro _ ⟨⟩
    exact ⟨rfl, rfl, Or.inl ⟨hbuild, rfl⟩⟩
  | @skipped t hbuild hcall hlast =>
    refine ⟨nofun, fun _ => nofun, ?_, nofun, fun _ => rfl⟩
    rintro _ ⟨⟩
    -- what would be sent is what the node has anyway
    refine ⟨t, hbuild, (h t hlast).1, nofun, ?_⟩
    rintro (hpublish | hnew)
    · exact absurd hpublish hcall
    · exact absurd hlast hnew
  | @refused t e s' hbuild hnew hsend =>
    refine ⟨?_, ?_, nofun, nofun, nofun⟩
    · rintro _ ⟨⟩
      exact ⟨rfl, S.tags_of_refused hsend, Or.inr ⟨t, hbuild, hsend⟩⟩
    · intro hsteady _ _
      rw [hsteady t d.2 e s' hsend]
  | @taken t s' hbuild hnew hsend =>
    refine ⟨nofun, fun _ => nofun, ?_, fun _ => ⟨t, hbuild, hsend, rfl⟩, nofun⟩
    rintro _ ⟨⟩
    exact ⟨t, hbuild, S.tags_of_send hsend, fun _ => hnew, fun _ => rfl⟩

/-! ### The invariant -/

theorem inStep_start (S : Substrate σ) (node : String) (config : Advertised) (s : σ) :
    InStep S (⟨node, config, none⟩, s) := nofun

/-- Where the tags of the node stay nothing drifts apart. -/
theorem InStep.keep {p : Publisher} {s s' : σ} (h : InStep S (p, s))
    (hkeeps : S.tags s' = S.tags s) : InStep S (p, s') := by
  intro t ht
  obtain ⟨htags, hrest⟩ := h t ht
  exact ⟨hkeeps.trans htags, hrest⟩

/-- Once a set has been published all three agree. -/
theorem inStep_published {p : Publisher} {s : σ} {t : TagSet} (hlast : p.lastPublished = some t)
    (htags : S.tags s = some t) (hbuild : p.config.build = .ok t) : InStep S (p, s) := by
  intro t' ht'
  obtain rfl : t = t' := Option.some.inj (hlast.symm.trans ht')
  have hsealed : t.IsSealed := Advertised.build_isSealed hbuild
  exact ⟨htags, hbuild, t.bare, TagSet.unsealed_eq_ok_iff.mpr ⟨rfl, hsealed⟩⟩

theorem Call.Comes.inStep (hcomes : c.Comes S.send d.1 d.2 r) (h : InStep S d) :
    InStep S r.2 := by
  cases hcomes with
  | unbuilt | skipped => exact h
  | refused hbuild hnew hsend => exact h.keep (S.tags_of_refused hsend)
  | taken hbuild hnew hsend => exact inStep_published rfl (S.tags_of_send hsend) hbuild

theorem inStep_step (h : InStep S d) (e : Event S) : InStep S (step d e) := by
  cases e with
  | call c => exact (comes_perform S d c).inStep h
  | elsewhere change keeps => exact h.keep (keeps d.2)

theorem inStep_run (h : InStep S d) (events : List (Event S)) : InStep S (run d events) := by
  induction events generalizing d with
  | nil => exact h
  | cons e rest ih => exact ih (inStep_step h e)

/-- **A publisher and its substrate never drift apart**, and every call on the
way does to them what it says: one that fails leaves the publisher, the tags of
the node, and whatever else the refusal of the substrate leaves. -/
theorem run_inStep (S : Substrate σ) (node : String) (config : Advertised) (s : σ)
    (events : List (Event S)) :
    InStep S (run (⟨node, config, none⟩, s) events)
    ∧ ∀ c : Call, Accounted S (run (⟨node, config, none⟩, s) events) c
        (c.perform S (run (⟨node, config, none⟩, s) events)) := by
  have h := inStep_run (inStep_start S node config s) events
  exact ⟨h, fun c => (comes_perform S _ c).accounted h⟩

/-- A proxy publishes on a board that is down at first: the call fails and is
counted, and the next one succeeds. -/
theorem run_inStep_faulty :
    let S := (Substrate.ofBoard "p").faulty
    let d₀ : Desk (Bool × Nat × Board) :=
      (⟨"p", { role := .proxy }, none⟩, true, 0, Board.join {} "p" default)
    let up : Event S := .elsewhere (fun s => (false, s.2)) fun _ => rfl
    let d := run d₀ [.call .publish, up, .call .publish]
    (∃ e, (Call.publish.perform S d₀).1 = .error e)
      ∧ (Call.publish.perform S d₀).2.1 = d₀.1 ∧ (Call.publish.perform S d₀).2.2.2.1 = 1
      ∧ ∃ t, d.1.lastPublished = some t ∧ S.tags d.2 = some t ∧ d.1.config.build = .ok t := by
  intro S d₀ up d
  let b : Board := Board.join {} "p" default
  obtain ⟨t, ht, -⟩ := Advertised.build_eq_ok (a := d₀.1.config) List.nodup_nil
  have hdown : d₀.1.publish S.send d₀.2
      = (.error (.gossip (.publish "the substrate is down")), d₀.1, true, 1, b) :=
    publish_refused ht rfl
  have hfails : (Call.publish.perform S d₀)
      = (.error (.gossip (.publish "the substrate is down")), d₀.1, true, 1, b) := by
    rw [Call.perform, hdown]
    rfl
  have hlast : d.1.lastPublished = some t := by
    have hup : S.send t (false, 1, b) = (.ok (), false, 1, _) := rfl
    show (run (Call.publish.perform S d₀).2 [up, .call .publish]).1.lastPublished = _
    rw [hfails]
    show (Call.publish.perform S (d₀.1, false, 1, b)).2.1.lastPublished = _
    rw [Call.perform, publish_taken ht hup]
  have hfirst := (run_inStep S "p" { role := .proxy } d₀.2 []).2 .publish
  have hkept := (hfirst.failed _ (congrArg Prod.fst hfails)).1
  obtain ⟨hinStep, -⟩ :=
    run_inStep S "p" { role := .proxy } d₀.2 [.call .publish, up, .call .publish]
  obtain ⟨htags, hbuild, -⟩ := hinStep t hlast
  exact ⟨⟨_, by rw [hfails]⟩, hkept, by rw [hfails], t, hlast, htags, hbuild⟩

end Publisher
end Rendezvous
