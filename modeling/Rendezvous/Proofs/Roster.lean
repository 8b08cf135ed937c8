/-
Rendezvous/Proofs/Roster.lean

Directories of peer files, in whatever order they are listed.

A name with the extension of a peer file spells an identifier if its stem can be read
as one, and the file defines a peer if it is text that does (`Defines`).  Reading some
listed names goes through those with the extension one by one (`readListed_eq_ok_iff`),
so it succeeds for one order of the names if it does for another, and gives the same
peers (`readListed_of_perm`).  Sorting puts them in one order if their identifiers are
different.

One identifier can be spelled in several ways, so two files may define peers with one
identifier.  Both are read, but such peers cannot be advertised: no tag set is made, so
nothing gets as far as the substrate (`listing_exact`).
-/
import Mathlib.Data.List.Perm.Basic
import Rendezvous.Node.Server
import Rendezvous.Proofs.Definition
import Rendezvous.Proofs.Publishing

namespace Rendezvous

/-! ### Lists related item by item -/

section Related

variable {α β : Type} {R : α → β → Prop} {l : List α} {m : List β}

theorem exists_forall₂_iff : (∃ m, List.Forall₂ R l m) ↔ ∀ a ∈ l, ∃ b, R a b := by
  induction l with
  | nil => exact ⟨fun _ => nofun, fun _ => ⟨[], .nil⟩⟩
  | cons a l ih =>
    rw [List.forall_mem_cons, ← ih]
    constructor
    · rintro ⟨_, hab | ⟨hab, hrest⟩⟩
      exact ⟨⟨_, hab⟩, _, hrest⟩
    · rintro ⟨⟨b, hab⟩, m, hrest⟩
      exact ⟨b :: m, .cons hab hrest⟩

theorem exists_mem_of_forall₂ (h : List.Forall₂ R l m) {a : α} (ha : a ∈ l) :
    ∃ b ∈ m, R a b := by
  induction h with
  | nil => cases ha
  | cons hfirst _ ih =>
    rcases List.mem_cons.mp ha with rfl | ha
    · exact ⟨_, List.mem_cons_self, hfirst⟩
    · obtain ⟨b, hb, hR⟩ := ih ha
      exact ⟨b, List.mem_cons_of_mem _ hb, hR⟩

/-- Two different items have partners at two different places. -/
theorem exists_pair_of_forall₂ (h : List.Forall₂ R l m) {a a' : α} (ha : a ∈ l) (ha' : a' ∈ l)
    (hne : a ≠ a') : ∃ b b', R a b ∧ R a' b' ∧ [b, b'].Subperm m := by
  induction h with
  | nil => cases ha
  | cons hfirst hrest ih =>
    -- one of the two may be the first item
    rcases List.mem_cons.mp ha with rfl | hlater
    · obtain ⟨b', hb', hR'⟩ :=
        exists_mem_of_forall₂ hrest ((List.mem_cons.mp ha').resolve_left (Ne.symm hne))
      exact ⟨_, b', hfirst, hR', (List.subperm_cons _).mpr (List.singleton_subperm_iff.mpr hb')⟩
    · rcases List.mem_cons.mp ha' with rfl | hlater'
      · obtain ⟨b, hb, hR⟩ := exists_mem_of_forall₂ hrest hlater
        refine ⟨b, _, hR, hfirst, (List.Perm.swap ..).subperm.trans ?_⟩
        exact (List.subperm_cons _).mpr (List.singleton_subperm_iff.mpr hb)
      · obtain ⟨b, b', hR, hR', hsub⟩ := ih hlater hlater'
        exact ⟨b, b', hR, hR', hsub.trans (List.sublist_cons_self _ _).subperm⟩

end Related

namespace Peer

variable {path name : String} {d : Directory} {names names' : List String} {id : Uuid} {p : Peer}
  {l : List Peer}

/-! ### Files -/

/-- A name has the extension of a peer file and a stem that reads as an identifier. -/
def Spells (name : String) (id : Uuid) : Prop :=
  ∃ stem, splitName name = (stem, some extension) ∧ Uuid.parse stem = .ok id

theorem Spells.unique {id' : Uuid} (h : Spells name id) (h' : Spells name id') : id = id' := by
  obtain ⟨stem, hname, hid⟩ := h
  obtain ⟨stem', hname', hid'⟩ := h'
  rw [hname] at hname'
  cases hname'
  exact Except.ok.inj (hid.symm.trans hid')

theorem Spells.isFileName (h : Spells name id) : isFileName name := by
  obtain ⟨stem, hname, -⟩ := h
  rw [Peer.isFileName, hname]
  exact decide_eq_true rfl

/-- A name spells the identifier of a peer, and its file is text that defines the peer. -/
structure Defines (d : Directory) (name : String) (p : Peer) : Prop where
  spells : Spells name p.id
  reads : ∃ contents, d.readText name = .ok contents ∧ ofLines p.id contents = .ok p

theorem readFile_eq_ok_iff {stem : String} (hname : splitName name = (stem, some extension)) :
    readFile path d name stem = .ok p ↔ Defines d name p := by
  rw [readFile]
  constructor
  · intro h
    split at h
    · cases h
    · rename_i id hid
      split at h
      · cases h
      · rename_i contents hcontents
        obtain rfl : p.id = id := (ofLines_eq_ok_iff.mp h).2.1
        exact ⟨⟨stem, hname, hid⟩, contents, hcontents, h⟩
  · rintro ⟨⟨stem', hname', hid⟩, contents, hcontents, hread⟩
    rw [hname] at hname'
    cases hname'
    simp only [hid, hcontents, hread]

/-! ### Listings -/

/-- **The files among listed names are read one by one.** -/
theorem readListed_eq_ok_iff : readListed path d names = .ok l
    ↔ List.Forall₂ (Defines d) (names.filter isFileName) l := by
  induction names generalizing l with
  | nil =>
    rw [readListed, List.filter_nil, List.forall₂_nil_left_iff, Except.ok.injEq, eq_comm]
  | cons name rest ih =>
    by_cases hname : isFileName name
    · obtain ⟨stem, hsplit⟩ : ∃ stem, splitName name = (stem, some extension) :=
        ⟨_, Prod.ext rfl (of_decide_eq_true hname)⟩
      rw [readListed, hsplit, List.filter_cons_of_pos hname, List.forall₂_cons_left_iff]
      dsimp only
      rw [if_pos rfl, Except.bind_eq_ok_iff]
      refine exists_congr fun p => ?_
      rw [readFile_eq_ok_iff hsplit, Except.bind_eq_ok_iff]
      constructor
      · rintro ⟨hp, ps, hps, hl⟩
        exact ⟨ps, hp, ih.mp hps, (Except.ok.inj hl).symm⟩
      · rintro ⟨ps, hp, hps, rfl⟩
        exact ⟨hp, ps, ih.mpr hps, rfl⟩
    · rw [readListed_cons_of_not hname, List.filter_cons_of_neg hname]
      exact ih

/-- In another order the same peers are read. -/
theorem readListed_of_perm (hperm : names'.Perm names) (h : readListed path d names = .ok l) :
    ∃ l', readListed path d names' = .ok l' ∧ l'.Perm l := by
  obtain ⟨l', hread, hl'⟩ := List.perm_comp_forall₂ (hperm.filter isFileName)
    (readListed_eq_ok_iff.mp h)
  exact ⟨l', readListed_eq_ok_iff.mpr hread, hl'⟩

/-- Read a directory whose entries come in some order. -/
def readIn (path : String) (d : Directory) (names : List String) : Except Error (List Peer) :=
  (readListed path d names).map sort

theorem readVolume_eq {v : Volume} (h : v.directory path = .ok d) :
    readVolume v path = readIn path d d.keys := by
  rw [readVolume, h]
  rfl

theorem exists_readIn_iff : (∃ l, readIn path d names = .ok l)
    ↔ ∀ name ∈ names, isFileName name → ∃ p, Defines d name p := by
  have hread : (∃ l, readIn path d names = .ok l) ↔ ∃ l, readListed path d names = .ok l := by
    constructor
    · rintro ⟨l, hl⟩
      obtain ⟨l₀, hl₀, -⟩ := Except.map_eq_ok_iff.mp hl
      exact ⟨l₀, hl₀⟩
    · rintro ⟨l, hl⟩
      exact ⟨sort l, Except.map_eq_ok_iff.mpr ⟨l, hl, rfl⟩⟩
  rw [hread]
  simp only [readListed_eq_ok_iff, exists_forall₂_iff, List.mem_filter, and_imp]

/-- What is read is in order, one peer for each file. -/
theorem readIn_eq_ok (h : readIn path d names = .ok l) : l.Pairwise (fun p q => p.id.le q.id)
    ∧ ∃ ps, List.Forall₂ (Defines d) (names.filter isFileName) ps ∧ l.Perm ps := by
  obtain ⟨ps, hread, rfl⟩ := Except.map_eq_ok_iff.mp h
  exact ⟨pairwise_sort ps, ps, readListed_eq_ok_iff.mp hread, sort_perm ps⟩

/-! ### Identifiers that are spelled once -/

/-- No two of some names spell one identifier. -/
def SpelledOnce (names : List String) : Prop :=
  ∀ a ∈ names, ∀ b ∈ names, ∀ id, Spells a id → Spells b id → a = b

theorem nodup_ids_of_spelledOnce (h : List.Forall₂ (Defines d) names l) (hnodup : names.Nodup)
    (honce : SpelledOnce names) : (l.map Peer.id).Nodup := by
  induction h with
  | nil => exact List.nodup_nil
  | @cons a p as ps ha hrest ih =>
    rw [List.nodup_cons] at hnodup
    obtain ⟨hfresh, hnodup⟩ := hnodup
    have honce' : SpelledOnce as := fun b hb c hc =>
      honce b (List.mem_cons_of_mem _ hb) c (List.mem_cons_of_mem _ hc)
    rw [List.map_cons, List.nodup_cons]
    refine ⟨fun hmem => ?_, ih hnodup honce'⟩
    -- a later peer with this identifier has a file whose name spells it
    obtain ⟨q, hq, hid⟩ := List.mem_map.mp hmem
    obtain ⟨b, hb, hdefines⟩ : ∃ b ∈ as, Defines d b q := exists_mem_of_forall₂ hrest.flip hq
    have hspells : Spells b p.id := hid ▸ hdefines.spells
    have hab := honce a List.mem_cons_self b (List.mem_cons_of_mem _ hb) p.id ha.spells hspells
    exact hfresh (hab ▸ hb)

/-- **The order of a listing makes no difference** where no two names spell one
identifier. -/
theorem readIn_of_perm (hnames : names.Perm d.keys) (hnames' : names'.Perm d.keys)
    (honce : SpelledOnce d.keys) (h : readIn path d names = .ok l) :
    readIn path d names' = .ok l := by
  obtain ⟨ps, hread, rfl⟩ := Except.map_eq_ok_iff.mp h
  obtain ⟨ps', hread', hperm⟩ := readListed_of_perm (hnames'.trans hnames.symm) hread
  have honce' : SpelledOnce (names.filter isFileName) := fun a ha b hb =>
    honce a (hnames.mem_iff.mp (List.mem_of_mem_filter ha))
      b (hnames.mem_iff.mp (List.mem_of_mem_filter hb))
  have hnodup : names.Nodup := hnames.nodup_iff.mpr d.ascending.nodup_keys
  have hids : (ps.map Peer.id).Nodup :=
    nodup_ids_of_spelledOnce (readListed_eq_ok_iff.mp hread) (hnodup.filter _) honce'
  rw [readIn, hread', sort_eq_of_perm hperm.symm hids]
  rfl

/-! ### An identifier that is spelled twice -/

/-- Files of two different names that spell one identifier are both read. -/
theorem subperm_of_spells {a b : String} (hnames : names.Perm d.keys) (ha : a ∈ d.keys)
    (hb : b ∈ d.keys) (hne : a ≠ b) (hida : Spells a id) (hidb : Spells b id)
    (h : readIn path d names = .ok l) : ∃ p q, Defines d a p ∧ Defines d b q ∧ p.id = id
      ∧ q.id = id ∧ [p, q].Subperm l := by
  obtain ⟨-, ps, hps, hperm⟩ := readIn_eq_ok h
  have ha' : a ∈ names.filter isFileName :=
    List.mem_filter.mpr ⟨hnames.mem_iff.mpr ha, hida.isFileName⟩
  have hb' : b ∈ names.filter isFileName :=
    List.mem_filter.mpr ⟨hnames.mem_iff.mpr hb, hidb.isFileName⟩
  obtain ⟨p, q, hp, hq, hsub⟩ := exists_pair_of_forall₂ hps ha' hb' hne
  exact ⟨p, q, hp, hq, hp.spells.unique hida, hq.spells.unique hidb,
    hperm.symm.subperm_left.mp hsub⟩

theorem not_nodup_of_subperm {p q : Peer} (hsub : [p, q].Subperm l) (h : p.id = q.id) :
    ¬ (l.map Peer.id).Nodup := by
  intro hnodup
  obtain ⟨m, hm, hsubl⟩ := hsub
  have hm' : (m.map Peer.id).Nodup := hnodup.sublist (hsubl.map Peer.id)
  have hpair : ([p, q].map Peer.id).Nodup := (hm.map Peer.id).nodup_iff.mp hm'
  simp [h] at hpair

end Peer

namespace ServerNode

open Peer

variable {σ : Type} {d : Directory} {names : List String} {l : List Peer} {p : Peer}
  {settings : ServerSettings}

/-- Read the definitions in a directory whose entries come in some order, and advertise
them. -/
def publishIn (d : Directory) (names : List String) (settings : ServerSettings) (send : Send σ)
    (s : σ) : Except Error Publisher × σ :=
  match readIn settings.peerDir d names with
  | .error e => (.error e, s)
  | .ok peers =>
    if peers.isEmpty then
      (.error (.configuration ("No peer definitions found in " ++ settings.peerDir)), s)
    else advertise settings peers send s

theorem publishConfiguration_eq {v : Volume} (h : v.directory settings.peerDir = .ok d)
    (send : Send σ) (s : σ) :
    publishConfiguration v settings send s = (publishIn d d.keys settings send s).1.map
      fun publisher => (publisher, (publishIn d d.keys settings send s).2) := by
  rw [publishConfiguration, loadPeers, readVolume_eq h, publishIn]
  cases readIn settings.peerDir d d.keys with
  | error e => rfl
  | ok peers =>
    show Except.bind (if peers.isEmpty then _ else _) _ = _
    rcases hempty : peers.isEmpty with _ | _ <;> simp [hempty, Except.bind, Except.map]

/-- **Peers of which two have one identifier are not advertised.**  It does not matter what
the substrate would do with the tags, for there are none, and it is left as it was. -/
theorem advertise_of_firstRepeated (h : Advertised.FirstRepeated l p) (send : Send σ) (s : σ) :
    advertise settings l send s = (.error (Advertised.duplicateId p.id), s) := by
  have hbuild : (advertised settings l).build = .error (Advertised.duplicateId p.id) :=
    Advertised.build_eq_error h
  rw [advertise, Publisher.publish_unbuilt hbuild]
  rfl

theorem publishIn_of_firstRepeated (hread : readIn settings.peerDir d names = .ok l)
    (h : Advertised.FirstRepeated l p) (send : Send σ) (s : σ) :
    publishIn d names settings send s = (.error (Advertised.duplicateId p.id), s) := by
  have hpeers : l.isEmpty = false := by
    obtain ⟨before, after, rfl, -⟩ := h
    simp
  rw [publishIn, hread]
  show (if l.isEmpty then _ else _) = _
  rw [if_neg (hpeers ▸ Bool.false_ne_true)]
  exact advertise_of_firstRepeated h send s

/-- **What is read from a directory, and what is not advertised.**  For every order in
which the entries of a directory are listed: the files are read exactly if every name with
the extension of a peer file spells an identifier and its file is text that defines the
peer; one peer is read for each of these, and they ascend.  If no two names spell one
identifier, the peers are the same for every order.  If two do, the peers of both are read
and nothing is sent, so that the substrate stays as it was.  The directory of a volume is
read, and what is in it advertised, in the order of its names. -/
theorem listing_exact (d : Directory) :
    (∀ path names, names.Perm d.keys →
      ((∃ l, readIn path d names = .ok l)
        ↔ ∀ name ∈ d.keys, isFileName name → ∃ p, Defines d name p))
    ∧ (∀ path names l, names.Perm d.keys → readIn path d names = .ok l →
      l.Pairwise (fun p q => p.id.le q.id)
        ∧ ∃ ps, List.Forall₂ (Defines d) (d.keys.filter isFileName) ps ∧ l.Perm ps)
    ∧ (SpelledOnce d.keys → ∀ path names names' l, names.Perm d.keys → names'.Perm d.keys →
      readIn path d names = .ok l → readIn path d names' = .ok l)
    ∧ (∀ settings names l, names.Perm d.keys → readIn settings.peerDir d names = .ok l →
      ∀ a ∈ d.keys, ∀ b ∈ d.keys, a ≠ b → ∀ id, Spells a id → Spells b id →
        (∃ p q, Defines d a p ∧ Defines d b q ∧ p.id = id ∧ q.id = id ∧ [p, q].Subperm l)
        ∧ ∃ p, Advertised.FirstRepeated l p ∧ ∀ (σ : Type) (send : Send σ) (s : σ),
          publishIn d names settings send s = (.error (Advertised.duplicateId p.id), s))
    ∧ ∀ v path, v.directory path = .ok d → readVolume v path = readIn path d d.keys
      ∧ ∀ settings : ServerSettings, settings.peerDir = path →
        ∀ (σ : Type) (send : Send σ) (s : σ),
          publishConfiguration v settings send s = (publishIn d d.keys settings send s).1.map
            fun publisher => (publisher, (publishIn d d.keys settings send s).2) := by
  refine ⟨?_, ?_, ?_, ?_, ?_⟩
  · intro path names hnames
    rw [exists_readIn_iff]
    simp only [hnames.mem_iff]
  · intro path names l hnames h
    obtain ⟨hascending, ps, hps, hl⟩ := readIn_eq_ok h
    obtain ⟨ps', hps', hperm⟩ := List.perm_comp_forall₂ (hnames.symm.filter isFileName) hps
    exact ⟨hascending, ps', hps', hl.trans hperm.symm⟩
  · intro honce path names names' l hnames hnames' h
    exact readIn_of_perm hnames hnames' honce h
  · intro settings names l hnames h a ha b hb hne id hida hidb
    obtain ⟨p, q, hp, hq, hpid, hqid, hsub⟩ := subperm_of_spells hnames ha hb hne hida hidb h
    obtain ⟨r, hr⟩ := Advertised.exists_firstRepeated
      (not_nodup_of_subperm hsub (hpid.trans hqid.symm))
    refine ⟨⟨p, q, hp, hq, hpid, hqid, hsub⟩, r, hr, ?_⟩
    intro σ send s
    exact publishIn_of_firstRepeated h hr send s
  · intro v path hd
    refine ⟨readVolume_eq hd, ?_⟩
    rintro settings rfl σ send s
    exact publishConfiguration_eq hd send s

/-- A file that defines a peer. -/
def card : Entry := .file (Text.octetsOf "IPADDR 10.0.0.2\nPORT 6001\nCLIENT_PORT 9001\n")

/-- A directory with two files of one peer, and what is no file of a peer. -/
def twins : Directory :=
  Table.ofList [("aaaaaaaa-aaaa-aaaa-aaaa-aaaaaaaaaaaa.peer", card),
    ("AAAAAAAA-AAAA-AAAA-AAAA-AAAAAAAAAAAA.peer", card), ("notes.txt", .folder)]

/-- A directory with files of two peers. -/
def siblings : Directory :=
  Table.ofList [("bbbbbbbb-bbbb-bbbb-bbbb-bbbbbbbbbbbb.peer", card),
    ("AAAAAAAA-AAAA-AAAA-AAAA-AAAAAAAAAAAA.peer", card)]

/-- The peer that the file defines under an identifier of equal octets. -/
def bearer (octet : UInt8) : Peer :=
  ⟨⟨⟨List.replicate 16 octet, rfl⟩⟩, .v4 ⟨[10, 0, 0, 2], rfl⟩, 6001, 9001⟩

theorem readIn_twins : readIn "" twins twins.keys.reverse = .ok [bearer 0xaa, bearer 0xaa] := by
  have hlisted : readListed "" twins twins.keys.reverse
      = .ok (List.replicate 2 (bearer 0xaa)) := by
    decide +kernel
  rw [readIn, hlisted]
  exact congrArg Except.ok (List.perm_replicate.mp (sort_perm _))

theorem readIn_siblings :
    readIn "" siblings siblings.keys = .ok [bearer 0xaa, bearer 0xbb] := by
  have hlisted : readListed "" siblings siblings.keys = .ok [bearer 0xaa, bearer 0xbb] := by
    decide +kernel
  have hascending : Peer.Ascending [bearer 0xaa, bearer 0xbb] :=
    List.pairwise_pair.mpr (show _ < _ by decide)
  rw [readIn, hlisted]
  exact congrArg Except.ok ((ascending_sort (by decide)).eq_of_perm hascending (sort_perm _))

theorem spells_capitals : Spells "AAAAAAAA-AAAA-AAAA-AAAA-AAAAAAAAAAAA.peer" (bearer 0xaa).id :=
  ⟨"AAAAAAAA-AAAA-AAAA-AAAA-AAAAAAAAAAAA", by decide +kernel, by decide +kernel⟩

theorem spelledOnce_siblings : SpelledOnce siblings.keys := by
  have hkeys : siblings.keys = ["AAAAAAAA-AAAA-AAAA-AAAA-AAAAAAAAAAAA.peer",
      "bbbbbbbb-bbbb-bbbb-bbbb-bbbbbbbbbbbb.peer"] := by
    decide +kernel
  have hother : Spells "bbbbbbbb-bbbb-bbbb-bbbb-bbbbbbbbbbbb.peer" (bearer 0xbb).id :=
    ⟨"bbbbbbbb-bbbb-bbbb-bbbb-bbbbbbbbbbbb", by decide +kernel, by decide +kernel⟩
  have hne : (bearer 0xaa).id ≠ (bearer 0xbb).id := by decide
  intro a ha b hb id hida hidb
  rw [hkeys, List.mem_pair] at ha hb
  rcases ha with rfl | rfl
  · rcases hb with rfl | rfl
    · rfl
    · exact absurd ((spells_capitals.unique hida).trans (hidb.unique hother)) hne
  · rcases hb with rfl | rfl
    · exact absurd ((spells_capitals.unique hidb).trans (hida.unique hother)) hne
    · rfl

/-- Both files of the one peer are read and nothing is sent; those of two peers are read
alike in both orders. -/
theorem listing_exact_twins :
    readIn "" twins twins.keys.reverse = .ok [bearer 0xaa, bearer 0xaa]
    ∧ publishIn twins twins.keys.reverse default (fun _ sent => (.ok (), sent + 1)) 0
      = (.error (Advertised.duplicateId (bearer 0xaa).id), 0)
    ∧ readIn "" siblings siblings.keys.reverse = .ok [bearer 0xaa, bearer 0xbb] := by
  obtain ⟨-, -, -, htwice, -⟩ := listing_exact twins
  obtain ⟨-, -, hsame, -⟩ := listing_exact siblings
  have hlower : Spells "aaaaaaaa-aaaa-aaaa-aaaa-aaaaaaaaaaaa.peer" (bearer 0xaa).id :=
    ⟨"aaaaaaaa-aaaa-aaaa-aaaa-aaaaaaaaaaaa", by decide +kernel, by decide +kernel⟩
  refine ⟨readIn_twins, ?_, ?_⟩
  · obtain ⟨-, p, ⟨before, after, hp, -⟩, hpublish⟩ := htwice default _ _ (List.reverse_perm _)
      readIn_twins _ (by decide +kernel) _ (by decide +kernel) (by decide) _ spells_capitals hlower
    -- there is no other peer that the fault could name
    have hmem : p ∈ [bearer 0xaa, bearer 0xaa] := hp ▸ List.mem_append_right _ List.mem_cons_self
    obtain rfl : p = bearer 0xaa := by simpa using hmem
    exact hpublish ..
  · exact hsame spelledOnce_siblings "" _ _ _ (List.Perm.refl _) (List.reverse_perm _)
      readIn_siblings

end ServerNode

end Rendezvous
