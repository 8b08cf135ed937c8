/-
Rendezvous/Proofs/SingleWriter.lean

One member takes all writes.

A cluster in use stays orderly, whatever happens (`orderly_move`), from its
start on, when all members are new (`orderly_run`).  So calls need not agree on
anything to have one and the same member carry out their writes.  It is the
first of the peers, since

    a member leads if it is the first by the definitions that it has loaded,
    every member that is asked names the first, and
    a call sends its order to the address of the peer that was named.

For a call this means that what it has written is there once if it ends well,
and once or not at all if it fails; and what it has read is what was written
last at a time between its start and its end.
-/
import Rendezvous.Proofs.Errand

namespace Rendezvous

open Engine Http ServerNode

variable {peers : List Peer}

namespace Traffic

variable {t t' : Traffic} {i : Nat} {x : Parcel} {e e' : Errand}

/-! ### Runs -/

/-- What every event keeps. -/
structure Orderly (peers : List Peer) (t : Traffic) : Prop where
  kept : t.Kept peers
  sound : ∀ i (e : Errand), t.errands[i]? = some e → e.Sound peers t.served i
  sent : t.Sent peers

theorem sound_set {served : List Service}
    (h : ∀ j (e : Errand), t.errands[j]? = some e → e.Sound peers t.served j)
    (hsub : t.served ⊆ served) (he' : e'.Sound peers served i) (j : Nat) (e : Errand)
    (he : (t.errands.set i e')[j]? = some e) : e.Sound peers served j := by
  rw [List.getElem?_set] at he
  split at he
  · rename_i hij
    split at he
    · cases he
      exact hij ▸ he'
    · cases he
  · exact (h j e he).mono hsub

/-- A letter that is an order is one for the peer that leads. -/
theorem addressed_of_pending {c : Call} (h : c.stage.Proper peers)
    (hpending : c.pending? = some (x.addr, x.letter)) (o : Order) (hletter : x.letter = .order o) :
    ∃ q, Leads peers q ∧ x.addr = q.clientAddr := by
  rw [hletter] at hpending
  exact (Call.posting_of_pending h hpending).2.2

theorem orderly_call (h : t.Orderly peers) (o : Order) :
    Orderly peers { t with errands := t.errands ++ [⟨Call.begin peers o, none⟩] } where
  kept := h.kept.of_eq rfl rfl
  sound := by
    intro j e he
    rw [List.getElem?_append] at he
    split at he
    · exact h.sound j e he
    · rw [List.mem_singleton.mp (List.mem_of_getElem? he)]
      exact Errand.sound_begin o
  sent := by
    refine ⟨fun x hx => ?_, h.sent.addressed, fun j => Nat.le_trans (h.sent.once j) ?_⟩
    · show x.call < (t.errands ++ [_]).length
      rw [List.length_append]
      exact Nat.lt_add_right 1 (h.sent.issued x hx)
    show spent t j ≤ Option.getD (Option.map _ (_ ++ [_])[j]?) 0
    rw [spent, List.getElem?_append]
    split
    · exact Nat.le_refl _
    · rename_i hge
      -- a call that was not there has spent nothing
      rw [List.getElem?_eq_none (Nat.le_of_not_lt hge)]
      exact Nat.zero_le _

/-- **One event** keeps what is true. -/
theorem orderly_move (hsorted : peers.Pairwise fun p q => p.id.le q.id)
    (hids : (peers.map Peer.id).Nodup) (h : t.Orderly peers) (hmove : Move peers t t') :
    t'.Orderly peers := by
  have hkeep : t.served ⊆ t.served := fun _ => id
  cases hmove with
  | idle => exact h
  | call o => exact orderly_call h o
  | reach herrand hpending hmem haddr =>
    -- the letter is served and leaves its call, which now has a reply coming
    rename_i i p c addr l
    have hsound := h.sound _ _ herrand
    have hkept := kept_serve (x := ⟨i, addr, l⟩) hsorted hids h.kept hmem haddr
    refine ⟨hkept.of_eq rfl rfl, ?_, ?_⟩
    · exact sound_set (t := t) h.sound (List.subset_append_left ..)
        (Errand.sound_reached (s := ⟨⟨i, addr, l⟩, p, t.replyOf p l⟩) hsound rfl hpending)
    · refine h.sent.add (x := ⟨i, addr, l⟩) herrand rfl (parcels_serve t p _) ?_
        (spent_reach hpending)
      exact addressed_of_pending hsound.stage hpending
  | receive herrand =>
    refine ⟨h.kept.of_eq rfl rfl, ?_, h.sent.same herrand rfl rfl (spent_next ..)⟩
    exact sound_set h.sound hkeep
      (Errand.sound_received hids (h.sound _ _ herrand) h.kept.named)
  | lose herrand hrefusal =>
    refine ⟨h.kept.of_eq rfl rfl, ?_, h.sent.same herrand rfl rfl (spent_next ..)⟩
    exact sound_set h.sound hkeep (Errand.sound_refused hids (h.sound _ _ herrand) hrefusal)
  | giveUp herrand hpending hrefusal =>
    -- the letter leaves its call as well, but is served later if at all
    rename_i i c addr l refusal
    have hsound := h.sound _ _ herrand
    refine ⟨h.kept.of_eq rfl rfl, ?_, ?_⟩
    · exact sound_set (t := t) h.sound hkeep (Errand.sound_refused hids hsound hrefusal)
    · refine h.sent.add (x := ⟨i, addr, l⟩) herrand rfl (parcels_letGo t _) ?_
        (Nat.le_trans (spent_reach (r := default) hpending) (spent_next ..))
      exact addressed_of_pending hsound.stage hpending
  | arrive hparcel hmem haddr =>
    -- the letter has left its call before, so no call goes on
    rename_i k p x
    have hperm := parcels_arrive hparcel p
    have hpick : (t.pickUp k).Kept peers := h.kept.of_eq rfl rfl
    refine ⟨kept_serve hsorted hids hpick hmem haddr, ?_, ?_, ?_, ?_⟩
    · exact fun i e he => (h.sound i e he).mono (List.subset_append_left ..)
    · exact fun y hy => h.sent.issued y (hperm.mem_iff.mp hy)
    · exact fun y hy => h.sent.addressed y (hperm.mem_iff.mp hy)
    · intro i
      rw [hperm.countP_eq]
      exact h.sent.once i

variable {members : Peer → ClusterMember} {events : List Event}

theorem run_concat (events : List Event) (e : Event) :
    run peers members (events ++ [e]) = (run peers members events).step peers e := by
  rw [run, List.foldl_append]
  rfl

theorem orderly_run (hsorted : peers.Pairwise fun p q => p.id.le q.id)
    (hids : (peers.map Peer.id).Nodup)
    (hmembers : ∀ p ∈ peers, members p = memberOf peers p)
    (events : List Event) : (run peers members events).Orderly peers := by
  induction events using List.reverseRecOn with
  | nil =>
    exact ⟨⟨hmembers, fun _ _ _ => rfl, nofun, nofun⟩, nofun, nofun, nofun, fun _ => Nat.le_refl 0⟩
  | append_singleton before e ih =>
    rw [run_concat]
    exact orderly_move hsorted hids ih (move_step peers _ e)

theorem served_move (h : Move peers t t') :
    t'.served = t.served
      ∨ ∃ s, t'.served = t.served ++ [s] ∧ s.reply = t.replyOf s.peer s.letter := by
  cases h with
  | idle | call | receive | lose | giveUp => exact Or.inl rfl
  | reach | arrive => exact Or.inr ⟨_, rfl, rfl⟩

/-- Every letter was served at some time of the run. -/
theorem served_run {s : Service} (h : s ∈ (run peers members events).served) :
    ∃ before e, before ++ [e] <+: events
      ∧ (run peers members (before ++ [e])).served = (run peers members before).served ++ [s]
      ∧ s.reply = (run peers members before).replyOf s.peer s.letter := by
  induction events using List.reverseRecOn with
  | nil => cases h
  | append_singleton before e ih =>
    have hmove := move_step peers (run peers members before) e
    rw [← run_concat] at hmove
    rcases served_move hmove with hsame | ⟨s', hserved, hreply⟩
    · rw [hsame] at h
      obtain ⟨earlier, e', hprefix, hrest⟩ := ih h
      exact ⟨earlier, e', hprefix.trans (List.prefix_append ..), hrest⟩
    · rw [hserved] at h
      rcases List.mem_append.mp h with hold | hnew
      · obtain ⟨earlier, e', hprefix, hrest⟩ := ih hold
        exact ⟨earlier, e', hprefix.trans (List.prefix_append ..), hrest⟩
      · obtain rfl := List.mem_singleton.mp hnew
        exact ⟨before, e, List.prefix_rfl, hserved, hreply⟩

/-- Of the writes of a call no more are carried out than orders are sent. -/
theorem length_writesAt_le (p : Peer) (i : Nat) (l : List Service) :
    ((writesAt p l).filter fun w => w.1 = i).length
      ≤ l.countP fun s => s.toParcel.isOrderOf i := by
  rw [← List.countP_eq_length_filter, writesAt, List.countP_filterMap]
  refine List.countP_mono_left fun s _ hs => ?_
  rcases hwrite : s.write? with _ | r
  · simp [hwrite] at hs
  · obtain ⟨bytes, hletter, -⟩ := Service.write?_eq_some_iff.mp hwrite
    rw [Parcel.isOrderOf, hletter]
    rw [hwrite] at hs
    split at hs
    · simpa using hs
    · cases hs

/-- No call writes twice. -/
theorem Orderly.length_writesAt (h : t.Orderly peers) (p : Peer) (i : Nat) :
    ((writesAt p t.served).filter fun w => w.1 = i).length ≤ 1 := by
  have hspent : t.spent i ≤ 1 := by
    rw [spent]
    rcases t.errands[i]? with _ | ⟨c, reply⟩
    · exact Nat.zero_le _
    · show Errand.spent _ ≤ 1
      rw [Errand.spent]
      split
      · exact Nat.zero_le _
      · split <;> decide
      · exact Nat.le_refl _
  -- what is served is part of what has left the call
  have hcount := h.sent.once i
  rw [parcels, List.countP_append, List.countP_map] at hcount
  have hle := length_writesAt_le p i t.served
  have hsame : t.served.countP (fun s => s.toParcel.isOrderOf i)
      = t.served.countP (Parcel.isOrderOf i ∘ Service.toParcel) := rfl
  omega

/-- An order is served by the peer that leads. -/
theorem Orderly.leads (h : t.Orderly peers) (haddrs : (peers.map Peer.clientAddr).Nodup)
    {s : Service} (hs : s ∈ t.served) {o : Order} (hletter : s.letter = .order o) :
    Leads peers s.peer := by
  obtain ⟨hmem, haddr⟩ := h.kept.delivered s hs
  have hparcel : s.toParcel ∈ t.parcels :=
    List.mem_append_right _ (List.mem_map_of_mem hs)
  obtain ⟨q, hq, hqaddr⟩ := h.sent.addressed s.toParcel hparcel o hletter
  rw [List.inj_on_of_nodup_map haddrs hmem hq.1 (haddr.trans hqaddr)]
  exact hq

/-! ### One writer -/

/-- What a call was made for and what it came to, once it is done. -/
def result? (t : Traffic) (i : Nat) : Option (Order × Except Error (List UInt8)) :=
  match t.errands[i]? with
  | some ⟨⟨o, .done result⟩, _⟩ => some (o, result)
  | _ => none

theorem result?_eq_some {o : Order} {result : Except Error (List UInt8)}
    (h : t.result? i = some (o, result)) :
    ∃ reply, t.errands[i]? = some ⟨⟨o, .done result⟩, reply⟩ := by
  rw [result?] at h
  split at h
  · rename_i o' result' reply herrand
    cases h
    exact ⟨reply, herrand⟩
  · cases h

/-- A cluster has a single writer. -/
structure SingleWriter (peers : List Peer) (members : Peer → ClusterMember)
    (events : List Event) : Prop where
  /-- Only the store of the member with the lowest identifier ever changes. -/
  untouched : ∀ p ∈ peers, ¬ Leads peers p →
    ((run peers members events).members p).store = Table.empty
  /-- It is made of the writes that were carried out there, in their order. -/
  leader : ∀ p, Leads peers p → ((run peers members events).members p).store
    = Kv.Store.putAll Table.empty ((writesAt p (run peers members events).served).map Prod.snd)
  /-- No call writes twice. -/
  atMostOnce : ∀ p i,
    ((writesAt p (run peers members events).served).filter fun w => w.1 = i).length ≤ 1
  /-- A write that ends well has been carried out there, and once. -/
  written : ∀ i bytes reply,
    (run peers members events).result? i = some (.write bytes, .ok reply) →
    ∃ p r, Leads peers p ∧ Kv.Request.decode bytes = .ok r
      ∧ (writesAt p (run peers members events).served).filter (fun w => w.1 = i) = [(i, r)]
  /-- A read that ends well brings what was written there last when it was served,
  after the call was made. -/
  readBack : ∀ i bytes reply,
    (run peers members events).result? i = some (.read bytes, .ok reply) →
    ∃ p r before e answer, Leads peers p ∧ Kv.Request.decode bytes = .ok r
      ∧ before ++ [e] <+: events ∧ i < (run peers members (before ++ [e])).errands.length
      ∧ (run peers members (before ++ [e])).served = (run peers members before).served
        ++ [⟨⟨i, p.clientAddr, .order (.read bytes)⟩, p, answer⟩]
      ∧ reply = (Kv.Store.replyAfter
          ((writesAt p (run peers members before).served).map Prod.snd) r).encode
  /-- A call that fails fails with an error of the engine. -/
  failing : ∀ i o e, (run peers members events).result? i = some (o, .error e) →
    ∃ message, e = .engine message

/-- Every peer runs a member that was started on the same definitions. -/
def Founded (peers : List Peer) (members : Peer → ClusterMember) : Prop :=
  ∀ p ∈ peers, ∃ (σ : Type) (v : Volume) (settings : ServerSettings) (send : Send σ)
    (listen : Listen) (s s' : σ) (node : ServerNode),
    loadPeers v settings = .ok peers ∧ settings.peerId = p.id
      ∧ ServerNode.start v settings send listen s = (.ok node, s') ∧ members p = node.member

theorem Founded.pairwise (h : Founded peers members) :
    peers.Pairwise fun p q => p.id.le q.id := by
  cases peers with
  | nil => exact List.Pairwise.nil
  | cons p rest =>
    obtain ⟨σ, v, settings, send, listen, s, s', node, hload, -⟩ := h p (List.mem_cons_self ..)
    exact pairwise_loadPeers hload

theorem Founded.member (h : Founded peers members) (hids : (peers.map Peer.id).Nodup) :
    ∀ p ∈ peers, members p = memberOf peers p := by
  intro p hp
  obtain ⟨σ, v, settings, send, listen, s, s', node, hload, hid, hstart, hnode⟩ := h p hp
  obtain ⟨own, hown, hownid, hmember⟩ := member_of_start hload hstart
  obtain rfl : own = p :=
    List.inj_on_of_nodup_map hids hown hp (hownid.trans hid)
  rw [hnode, hmember]

/-- Members that can start on the same definitions found a cluster. -/
theorem founded_of_load (hids : (peers.map Peer.id).Nodup)
    (hload : ∀ p ∈ peers, ∃ (v : Volume) (settings : ServerSettings),
      loadPeers v settings = .ok peers ∧ settings.peerId = p.id) :
    Founded peers (memberOf peers) := by
  intro p hp
  obtain ⟨v, settings, hload, hid⟩ := hload p hp
  obtain ⟨node, s', hstart⟩ := @start_eq_ok Unit v settings (fun _ s => (.ok (), s)) .ok peers
    hload hids ⟨p, hp, hid.symm⟩ (fun _ s => ⟨s, rfl⟩) (fun addr => ⟨addr, rfl⟩) ()
  obtain ⟨own, hown, hownid, hmember⟩ := member_of_start hload hstart
  obtain rfl : own = p := List.inj_on_of_nodup_map hids hown hp (hownid.trans hid)
  exact ⟨Unit, v, settings, _, _, (), s', node, hload, hid, hstart, hmember.symm⟩

/-- A list with an element and no other has that element. -/
theorem eq_singleton_of_mem {α : Type} {l : List α} {a : α} (h : a ∈ l) (hle : l.length ≤ 1) :
    l = [a] := by
  match l, h, hle with
  | [b], h, _ => rw [List.mem_singleton.mp h]

/-- A write that ends well has been carried out by the peer that leads. -/
theorem written_of_ok (haddrs : (peers.map Peer.clientAddr).Nodup)
    (horderly : (run peers members events).Orderly peers) {i : Nat} {bytes reply : List UInt8}
    (h : (run peers members events).result? i = some (.write bytes, .ok reply)) :
    ∃ p r, Leads peers p ∧ Kv.Request.decode bytes = .ok r
      ∧ (writesAt p (run peers members events).served).filter (fun w => w.1 = i) = [(i, r)] := by
  obtain ⟨back, herrand⟩ := result?_eq_some h
  obtain ⟨s, hs, hcall, hletter, hsuccess, -⟩ := (horderly.sound i _ herrand).ok reply rfl
  have hletter' : s.letter = .order (.write bytes) := hletter
  -- the reply was one of success, so the bytes could be read
  obtain ⟨r, hdecode⟩ : ∃ r, Kv.Request.decode bytes = .ok r := by
    obtain ⟨before, e, -, -, hreply⟩ := served_run hs
    rw [hreply, replyOf, hletter'] at hsuccess
    rcases ClusterMember.serve_write ((run peers members before).members s.peer) bytes with
      ⟨r, -, hdecode, -⟩ | ⟨e, hserve⟩
    · exact ⟨r, hdecode⟩
    · rw [hserve, Reply.isSuccess_error] at hsuccess
      cases hsuccess
  have hwrite : s.write? = some r :=
    Service.write?_eq_some_iff.mpr ⟨bytes, hletter', hsuccess, hdecode⟩
  refine ⟨s.peer, r, horderly.leads haddrs hs hletter', hdecode, ?_⟩
  -- it is among what was carried out, and nothing else was for this call
  refine eq_singleton_of_mem (List.mem_filter.mpr ⟨?_, by simp⟩)
    (horderly.length_writesAt s.peer i)
  refine List.mem_filterMap.mpr ⟨s, hs, ?_⟩
  rw [if_pos rfl, hwrite, hcall]
  rfl

/-- A read that ends well was answered from the store of the peer that leads. -/
theorem readBack_of_ok (haddrs : (peers.map Peer.clientAddr).Nodup)
    (horderly : ∀ events, (run peers members events).Orderly peers) {i : Nat}
    {bytes reply : List UInt8}
    (h : (run peers members events).result? i = some (.read bytes, .ok reply)) :
    ∃ p r before e answer, Leads peers p ∧ Kv.Request.decode bytes = .ok r
      ∧ before ++ [e] <+: events ∧ i < (run peers members (before ++ [e])).errands.length
      ∧ (run peers members (before ++ [e])).served = (run peers members before).served
        ++ [⟨⟨i, p.clientAddr, .order (.read bytes)⟩, p, answer⟩]
      ∧ reply = (Kv.Store.replyAfter
          ((writesAt p (run peers members before).served).map Prod.snd) r).encode := by
  obtain ⟨back, herrand⟩ := result?_eq_some h
  obtain ⟨s, hs, hcall, hletter, hsuccess, hbody⟩ :=
    ((horderly events).sound i _ herrand).ok reply rfl
  have hletter' : s.letter = .order (.read bytes) := hletter
  have hleads := (horderly events).leads haddrs hs hletter'
  have haddr := ((horderly events).kept.delivered s hs).2
  -- the store is the one at the time when the read was served
  obtain ⟨before, event, hprefix, hserved, hreply⟩ := served_run hs
  have hmember := (horderly before).kept.member s.peer hleads.1
  rw [replyOf, hletter', hmember] at hreply
  rcases ClusterMember.serve_read _ bytes with ⟨r, hdecode, hserve⟩ | ⟨e, hserve⟩
  · rw [hserve] at hreply
    have hthere : s ∈ (run peers members (before ++ [event])).served := by
      rw [hserved]
      exact List.mem_append_right _ (List.mem_singleton_self s)
    have hissued : s.call < _ := (horderly (before ++ [event])).sent.issued s.toParcel
      (List.mem_append_right _ (List.mem_map_of_mem hthere))
    rw [hcall] at hissued
    refine ⟨s.peer, r, before, event, s.reply, hleads, hdecode, hprefix, hissued, ?_, ?_⟩
    · rw [hserved]
      obtain ⟨⟨call, addr, letter⟩, p, answer⟩ := s
      obtain rfl : addr = p.clientAddr := haddr.symm
      cases hcall
      cases hletter'
      rfl
    · rw [← hbody, hreply]
      show (Kv.Store.reply (storeAt s.peer _) r).encode = _
      rw [storeAt, Kv.Store.reply_putAll]
  · rw [hserve] at hreply
    rw [hreply, Reply.isSuccess_error] at hsuccess
    cases hsuccess

theorem length_loopback : [(127 : UInt8), 0, 0, 1].length = 4 := rfl

/-- Two peers on one host. -/
def neighbour (second : Bool) : Peer where
  id := ⟨⟨List.replicate 15 0 ++ [if second then 2 else 1], by cases second <;> rfl⟩⟩
  ip := .v4 ⟨[127, 0, 0, 1], length_loopback⟩
  servicePort := 9000
  clientPort := if second then 8002 else 8001

def neighbours : List Peer := [neighbour false, neighbour true]

def definition (second : Bool) : String :=
  if second then "IPADDR 127.0.0.1\nPORT 9000\nCLIENT_PORT 8002\n"
  else "IPADDR 127.0.0.1\nPORT 9000\nCLIENT_PORT 8001\n"

def fileName (second : Bool) : String :=
  if second then "00000000-0000-0000-0000-000000000002.peer"
  else "00000000-0000-0000-0000-000000000001.peer"

/-- The directory with their definitions. -/
def neighbourhood : Directory where
  toList := [(fileName false, .file (Text.octetsOf (definition false))),
    (fileName true, .file (Text.octetsOf (definition true)))]
  ascending := by
    refine List.pairwise_pair.mpr ?_
    decide +kernel

def disk : Volume :=
  ⟨Table.ofList [("", Table.ofList [("peers", .folder)]), ("peers", neighbourhood)]⟩

theorem readText_neighbourhood (second : Bool) :
    neighbourhood.readText (fileName second) = .ok (definition second) := by
  refine Directory.readText_of_get? ?_
  cases second with
  | false => exact List.lookup_cons_self
  | true =>
    have hne : (fileName true == fileName false) = false := by decide +kernel
    show List.lookup _ (_ :: _) = _
    rw [List.lookup_cons, hne]
    exact List.lookup_cons_self

theorem readFile_neighbourhood (second : Bool) :
    Peer.readFile "peers" neighbourhood (fileName second) (neighbour second).id.text
      = .ok (neighbour second) := by
  rw [Peer.readFile, Uuid.parse_text]
  dsimp only
  rw [readText_neighbourhood]
  cases second <;> decide +kernel

theorem readVolume_disk : Peer.readVolume disk "peers" = .ok neighbours := by
  have hdirectory : disk.directory "peers" = .ok neighbourhood := by decide +kernel
  have hname : ∀ second, splitName (fileName second)
      = ((neighbour second).id.text, some Peer.extension) := by decide +kernel
  have hlisted : Peer.readListed "peers" neighbourhood neighbourhood.keys = .ok neighbours :=
    Peer.readListed_cons (hname false) (readFile_neighbourhood false)
      (Peer.readListed_cons (hname true) (readFile_neighbourhood true) rfl)
  have hsort : Peer.sort neighbours = neighbours := by
    refine List.mergeSort_of_pairwise ?_
    decide +kernel
  rw [Peer.readVolume, hdirectory]
  dsimp only
  rw [Peer.readDirectory, hlisted]
  exact congrArg Except.ok hsort

def settingsOf (second : Bool) : ServerSettings :=
  { (default : ServerSettings) with peerDir := "peers", peerId := (neighbour second).id }

def greeting : List UInt8 := Text.octetsOf "\x7b\"key\":\"k\",\"value\":[1,2]\x7d"

/-- A write and a read; the first peer does not hear either of their questions,
and the second answers both. -/
def visit : List Event :=
  [.call (.write greeting), .giveUp 0 none, .reach 0 (neighbour true), .receive 0,
    .reach 0 (neighbour false), .receive 0,
    .call (.read greeting), .giveUp 1 none, .reach 1 (neighbour true), .receive 1,
    .reach 1 (neighbour false), .receive 1]

example : (run neighbours (memberOf neighbours) visit).result? 0
      = some (.write greeting, .ok [])
    ∧ (run neighbours (memberOf neighbours) visit).result? 1
      = some (.read greeting, .ok (Kv.Response.ok [1, 2]).encode) := by
  decide +kernel

end Traffic

end Rendezvous
