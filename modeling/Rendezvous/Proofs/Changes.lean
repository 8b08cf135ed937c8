/-
Rendezvous/Proofs/Changes.lean

Changes that a publisher accepts.

A change is accepted when the call that asks for it succeeds.  One that makes
the tag set published last is accepted as well, but the publisher goes on with
the configuration from before.  So after changes that were all accepted it holds

    changes.foldl settle c₀

and not the configuration that the changes make one after the other
(`accepts_settled`).  The two agree all along exactly if no change is hidden, that
is, makes another configuration with the same tag set.  A hidden change does come
to light later: the next change that is published starts from the configuration
without it (`hidden_change_forgotten`).
-/
import Mathlib.Data.List.Induction
import Rendezvous.Proofs.Publishing

namespace Rendezvous

namespace Advertised

/-! ### Configurations with the same tags -/

/-- The tag set of a configuration is what it has under each name. -/
theorem build_congr {a b : Advertised} (ha : (a.peers.map Peer.id).Nodup)
    (hb : (b.peers.map Peer.id).Nodup) (h : ∀ k, a.value? k = b.value? k) :
    a.build = b.build := by
  obtain ⟨t, ht, hget⟩ := tags_eq_ok ha
  obtain ⟨u, hu, hget'⟩ := tags_eq_ok hb
  obtain rfl : t = u := Table.ext_get? fun k => by rw [hget, hget', h]
  rw [build, build, ht, hu]

/-- A changing value overrules whatever else has its name. -/
theorem value?_of_dynamic {a : Advertised} {k v : String} (h : a.dynamic.get? k = some v) :
    a.value? k = some v := by
  rw [value?, h, Option.some_or]

/-- The configuration with which a publisher goes on after a change. -/
def settle (c : Advertised) (change : Advertised → Advertised) : Advertised :=
  if (change c).build = c.build then c else change c

/-- What is settled by changes, one after the other. -/
def settled (c : Advertised) (changes : List (Advertised → Advertised)) : Advertised :=
  changes.foldl settle c

/-- What changes make, one after the other. -/
def changed (c : Advertised) (changes : List (Advertised → Advertised)) : Advertised :=
  changes.foldl (fun c change => change c) c

/-- A change makes another configuration, but the same tag set. -/
def Hides (c : Advertised) (change : Advertised → Advertised) : Prop :=
  (change c).build = c.build ∧ change c ≠ c

variable {c : Advertised} {change : Advertised → Advertised}
  {changes : List (Advertised → Advertised)}

theorem settle_eq_iff : c.settle change = change c ↔ ¬ c.Hides change := by
  rw [settle, Hides]
  split
  · rename_i hsame
    constructor
    · exact fun h h' => h'.2 h.symm
    · intro h
      by_contra hne
      exact h ⟨hsame, fun heq => hne heq.symm⟩
  · rename_i hdiffers
    exact ⟨fun _ h => hdiffers h.1, fun _ => rfl⟩

theorem settled_concat : c.settled (changes ++ [change]) = (c.settled changes).settle change := by
  rw [settled, List.foldl_append]
  rfl

theorem changed_concat : c.changed (changes ++ [change]) = change (c.changed changes) := by
  rw [changed, List.foldl_append]
  rfl

/-- **Every change is kept exactly if none is hidden.** -/
theorem settled_eq_changed_iff :
    (∀ before, before <+: changes → c.settled before = c.changed before)
      ↔ ∀ before change, before ++ [change] <+: changes →
        ¬ (c.changed before).Hides change := by
  constructor
  · intro h before change hprefix
    have hafter := h _ hprefix
    rw [settled_concat, changed_concat,
      h before ((List.prefix_append ..).trans hprefix)] at hafter
    exact settle_eq_iff.mp hafter
  · intro h before
    induction before using List.reverseRecOn with
    | nil => exact fun _ => rfl
    | append_singleton before change ih =>
      intro hprefix
      rw [settled_concat, changed_concat, ih ((List.prefix_append ..).trans hprefix)]
      exact settle_eq_iff.mpr (h before change hprefix)

end Advertised

namespace Publisher

variable {σ : Type} {S : Substrate σ}

/-! ### Accepted changes -/

/-- Changes are all accepted and take a publisher and its substrate from `d` to
`d'`.  Before each of them and at the end the substrate may change in any way
that leaves the tags of the node alone. -/
inductive Accepts (S : Substrate σ) : Desk σ → List (Advertised → Advertised) → Desk σ → Prop
  | done {d} : Accepts S d [] d
  | elsewhere {p s s' changes d'} (keeps : S.tags s' = S.tags s)
      (rest : Accepts S (p, s') changes d') : Accepts S (p, s) changes d'
  | update {p s p' s' b change changes d'} (accepted : p.update change S.send s = (.ok b, p', s'))
      (rest : Accepts S (p', s') changes d') : Accepts S (p, s) (change :: changes) d'

/-- What was published last is what the node has and what the configuration makes. -/
def Stands (S : Substrate σ) (d : Desk σ) : Prop :=
  ∃ t, d.1.lastPublished = some t ∧ S.tags d.2 = some t ∧ d.1.config.build = .ok t

variable {p p' : Publisher} {s s' : σ} {change : Advertised → Advertised} {t : TagSet} {b : Bool}

theorem stands_publish (h : p.publish S.send s = (.ok t, p', s')) :
    Stands S (p', s') ∧ p'.config = p.config := by
  obtain ⟨u, hbuild, hsend, rfl⟩ := exists_of_publish h
  exact ⟨⟨u, rfl, S.tags_of_send hsend, hbuild⟩, rfl⟩

/-- **One accepted change** is advertised, but may not be kept. -/
theorem stands_update (h : Stands S (p, s)) (hup : p.update change S.send s = (.ok b, p', s')) :
    Stands S (p', s') ∧ p'.config = p.config.settle change
      ∧ (change p.config).build = p'.config.build := by
  obtain ⟨t₀, hlast₀, htags, hbuild₀⟩ := h
  have hcomes : (Call.update change).Comes S.send p s (.ok b, p', s') := by
    rw [← hup]
    exact comes_update (c := .update change) nofun ..
  cases hcomes with
  | skipped hbuild hcall hlast =>
    -- the change makes the set that is published already
    obtain rfl := Option.some.inj (hlast₀.symm.trans hlast)
    have hsame : (change p.config).build = p.config.build := hbuild.trans hbuild₀.symm
    refine ⟨⟨t₀, hlast₀, htags, hbuild₀⟩, ?_, hsame⟩
    rw [Advertised.settle, if_pos hsame]
  | @taken t _ hbuild hnew hsend =>
    have hne : (change p.config).build ≠ p.config.build := by
      intro hsame
      obtain rfl : t = t₀ := Except.ok.inj (hbuild.symm.trans (hsame.trans hbuild₀))
      exact hnew.elim nofun (fun hnew => hnew hlast₀)
    refine ⟨⟨t, rfl, S.tags_of_send hsend, hbuild⟩, ?_, rfl⟩
    rw [Advertised.settle, if_neg hne]
    rfl

/-- After accepted changes the publisher holds what they have settled. -/
theorem Accepts.settled {changes : List (Advertised → Advertised)} {d d' : Desk σ}
    (h : Accepts S d changes d') (hstands : Stands S d) :
    Stands S d' ∧ d'.1.config = d.1.config.settled changes := by
  induction h with
  | done => exact ⟨hstands, rfl⟩
  | elsewhere keeps rest ih =>
    obtain ⟨t, hlast, htags, hbuild⟩ := hstands
    exact ih ⟨t, hlast, keeps.trans htags, hbuild⟩
  | update accepted rest ih =>
    obtain ⟨hstands', hconfig, -⟩ := stands_update hstands accepted
    obtain ⟨hend, hsettled⟩ := ih hstands'
    refine ⟨hend, hsettled.trans ?_⟩
    rw [show (_ : Publisher × σ).1.config = _ from hconfig]
    rfl

/-- **After changes that were all accepted** a publisher holds what they have
settled, and a further one is made to that.  No change is ever lost exactly if
none is hidden. -/
theorem accepts_settled (S : Substrate σ) {changes : List (Advertised → Advertised)}
    {d d' : Desk σ} {t : TagSet} {p : Publisher} {s : σ}
    (hpublish : d.1.publish S.send d.2 = (.ok t, p, s))
    (haccepts : Accepts S (p, s) changes d') :
    d'.1.config = d.1.config.settled changes
    ∧ (∀ change b p s, d'.1.update change S.send d'.2 = (.ok b, p, s) →
      ∃ t, (change (d.1.config.settled changes)).build = .ok t ∧ S.tags s = some t)
    ∧ ((∀ before, before <+: changes → d.1.config.settled before = d.1.config.changed before)
      ↔ ∀ before change, before ++ [change] <+: changes →
        ¬ (d.1.config.changed before).Hides change) := by
  obtain ⟨hstands, hconfig⟩ := stands_publish hpublish
  obtain ⟨hend, hsettled⟩ := haccepts.settled hstands
  have hheld : d'.1.config = d.1.config.settled changes := by
    rw [hsettled]
    exact congrArg (fun c => Advertised.settled c changes) hconfig
  refine ⟨hheld, ?_, Advertised.settled_eq_changed_iff⟩
  intro change b p' s' hup
  obtain ⟨⟨t, -, htags, hbuild⟩, -, hmade⟩ := stands_update hend hup
  rw [hheld] at hmade
  exact ⟨t, hmade.trans hbuild, htags⟩

/-! ### A hidden change -/

/-- A front end whose port is overruled by a changing value of the same name. -/
def overruled : Advertised where
  role := .proxy
  ports := Table.empty.insert Tag.httpPort 8080
  dynamic := Table.empty.insert Tag.httpPort "80"

/-- Move the front end to another port. -/
def move (a : Advertised) : Advertised := { a with ports := a.ports.insert Tag.httpPort 8081 }

/-- Overrule the port no more. -/
def reveal (a : Advertised) : Advertised := { a with dynamic := a.dynamic.erase Tag.httpPort }

/-- The publisher of the front end, and the board on which it is. -/
def frontDesk (lastPublished : Option TagSet) (tags : TagSet) : Desk Board :=
  (⟨"p", overruled, lastPublished⟩, ⟨Table.empty.insert "p" ⟨"p", default, .alive, tags⟩, false⟩)

/-- An overruled port is not seen. -/
theorem build_move_overruled : (move overruled).build = overruled.build := by
  refine Advertised.build_congr List.nodup_nil List.nodup_nil fun k => ?_
  by_cases hk : k = Tag.httpPort
  · subst hk
    rw [Advertised.value?_of_dynamic (a := overruled) (v := "80") rfl]
    exact Advertised.value?_of_dynamic rfl
  · have hports : (move overruled).ports.get? k = overruled.ports.get? k :=
      Table.get?_insert_ne _ _ hk
    rw [Advertised.value?, hports]
    rfl

/-- A port that is overruled no more is seen. -/
theorem value?_reveal {a : Advertised} {port : UInt16}
    (hport : a.ports.get? Tag.httpPort = some port) :
    (reveal a).value? Tag.httpPort = some (Text.decimal port.toNat) := by
  have hdynamic : (reveal a).dynamic.get? Tag.httpPort = none := by
    rw [reveal, Table.get?_erase, if_pos rfl]
  rw [Advertised.value?, hdynamic, Option.none_or, show (reveal a).ports = a.ports from rfl, hport,
    Option.map_some, Option.some_or]

theorem frontDesk_send (last : Option TagSet) (t u : TagSet) :
    (Substrate.ofBoard "p").send u (frontDesk last t).2 = (.ok (), (frontDesk last u).2) := rfl

/-- The front end publishes and then moves, which is accepted. -/
theorem frontDesk_accepts {t : TagSet} (ht : overruled.build = .ok t) :
    (frontDesk none Table.empty).1.publish (Substrate.ofBoard "p").send
        (frontDesk none Table.empty).2 = (.ok t, frontDesk (some t) t)
      ∧ Accepts (Substrate.ofBoard "p") (frontDesk (some t) t) [move] (frontDesk (some t) t) := by
  refine ⟨publish_taken ht (frontDesk_send ..), .update (b := false) ?_ .done⟩
  -- the set that was published is made once more
  exact update_skipped (build_move_overruled.trans ht) rfl ..

/-- The front end still holds its old port. -/
theorem accepts_settled_frontDesk : ∃ (t : TagSet) (p : Publisher) (s : Board) (d : Desk Board),
    (frontDesk none Table.empty).1.publish (Substrate.ofBoard "p").send
        (frontDesk none Table.empty).2 = (.ok t, p, s)
      ∧ Accepts (Substrate.ofBoard "p") (p, s) [move] d ∧ d.1.config = overruled := by
  obtain ⟨t, ht, -⟩ := Advertised.build_eq_ok (a := overruled) List.nodup_nil
  obtain ⟨hpublish, haccepts⟩ := frontDesk_accepts ht
  have hheld := (accepts_settled (Substrate.ofBoard "p") hpublish haccepts).1
  have hsettled : overruled.settled [move] = overruled := if_pos build_move_overruled
  exact ⟨_, _, _, _, hpublish, haccepts, hheld.trans hsettled⟩

/-- **A hidden change is forgotten**: the front end has moved, the publisher has
accepted that, and goes on to advertise the old port. -/
theorem hidden_change_forgotten :
    ∃ (d d' : Desk Board) (t₀ t : TagSet) (p p' : Publisher) (s s' : Board),
      d.1.publish (Substrate.ofBoard "p").send d.2 = (.ok t₀, p, s)
      ∧ Accepts (Substrate.ofBoard "p") (p, s) [move] d'
      ∧ d'.1.config ≠ d.1.config.changed [move]
      ∧ d'.1.update reveal (Substrate.ofBoard "p").send d'.2 = (.ok true, p', s')
      ∧ (Substrate.ofBoard "p").tags s' = some t
      ∧ (reveal (d.1.config.changed [move])).build ≠ .ok t := by
  obtain ⟨t₀, ht₀, -, hget₀⟩ := Advertised.build_eq_ok (a := overruled) List.nodup_nil
  obtain ⟨t₁, ht₁, -, hget₁⟩ := Advertised.build_eq_ok (a := reveal overruled) List.nodup_nil
  obtain ⟨t₂, ht₂, -, hget₂⟩ :=
    Advertised.build_eq_ok (a := reveal (move overruled)) List.nodup_nil
  obtain ⟨hpublish, haccepts⟩ := frontDesk_accepts ht₀
  have hname : Tag.httpPort ≠ Tag.checksum := by decide
  have hseen : t₀.get? Tag.httpPort = some "80" :=
    (hget₀ _ hname).trans (Advertised.value?_of_dynamic rfl)
  have hold : t₁.get? Tag.httpPort = some (Text.decimal (8080 : UInt16).toNat) :=
    (hget₁ _ hname).trans (value?_reveal (a := overruled) rfl)
  have hnew : t₂.get? Tag.httpPort = some (Text.decimal (8081 : UInt16).toNat) :=
    (hget₂ _ hname).trans (value?_reveal (a := move overruled) rfl)
  have hne₀ : t₀ ≠ t₁ := by
    rintro rfl
    rw [hseen] at hold
    revert hold
    decide
  have hne₂ : t₂ ≠ t₁ := by
    rintro rfl
    rw [hnew] at hold
    revert hold
    decide
  refine ⟨_, _, _, t₁, _, ⟨"p", reveal overruled, some t₁⟩, _, (frontDesk none t₁).2, hpublish,
    haccepts, ?_, ?_, rfl, ?_⟩
  · show overruled ≠ move overruled
    intro h
    have hports := congrArg (fun a : Advertised => a.ports.get? Tag.httpPort) h
    revert hports
    decide
  · exact update_taken ht₁ (fun h => hne₀ (Option.some.inj h)) (frontDesk_send ..)
  · show (reveal (move overruled)).build ≠ .ok t₁
    rw [ht₂]
    exact fun h => hne₂ (Except.ok.inj h)

end Publisher

end Rendezvous
