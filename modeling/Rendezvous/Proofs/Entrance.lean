/-
Rendezvous/Proofs/Entrance.lean

How a proxy enters the cluster.

A start goes through four stages, and any of them may fail:

    reconciling, writing the snapshot, binding a socket, publishing

`Step` has one rule for the success and one for the failure of each, and each of
them says what it was that succeeded or failed.  The disk may fail at any time and
leave any files behind (`Disk`), and a failure of the substrate leaves the tags;
around the stages the rest of the substrate may change as it likes.  The function
that starts a proxy is one run of these stages (`reaches_start`).

What holds after every step (`Sound`) says for each stage what is behind it.  Only
the last stage changes the tags of the node, and it comes after all the others, so
that a proxy that can be found has its files on disk and its socket bound
(`never_half_started`).
-/
import Mathlib.Logic.Relation
import Rendezvous.Node.Proxy
import Rendezvous.Proofs.Publishing
import Rendezvous.Proofs.Reconciler
import Rendezvous.Proofs.Snapshot

namespace Rendezvous

/-! ### Snapshots that are reconciled -/

namespace Reconciler

/-- A reconciliation concludes with a snapshot: it is started at some time, and
proceeds at others with whatever it is answered then. -/
def Concludes (settings : ReconcilerSettings) (snapshot : Snapshot) : Prop :=
  ∃ (time : Nat) (limit : Elapsed) (turns : List (Query × Timestamp × Nat)),
    (turns.foldl (fun r t => r.proceed t.1 t.2.1 t.2.2) (Run.start settings time limit)).outcome
      = some (.ok snapshot)

/-- If there is a snapshot, its peers have pairwise different identifiers. -/
def Distinct (outcome : Option (Except Error Snapshot)) : Prop :=
  ∀ s, outcome = some (.ok s) → (s.peers.map Peer.id).Nodup

theorem distinct_reconcile (tags : TagSet) (moment : Timestamp) :
    Distinct (some (reconcile tags moment).result) := by
  intro s hs
  by_cases hsealed : tags.IsSealed
  · rw [reconcile_of_isSealed hsealed] at hs
    rcases hcluster : clusterOf (tags.get? Tag.cluster) with e | id
    · rw [hcluster] at hs
      cases hs
    · rw [hcluster] at hs
      cases hs
      exact ((Peer.sort_perm _).map Peer.id).nodup_iff.mpr
        (nodup_ids_peersOf tags.bare.ascending.nodup_keys)
  · obtain ⟨e, he⟩ := reconcile_of_not_isSealed hsealed moment
    rw [he] at hs
    cases hs

theorem distinct_ask {r : Run} (h : Distinct r.outcome) (q : Query) (moment : Timestamp)
    (now : Nat) : Distinct (r.ask q moment now).outcome := by
  rw [Run.ask]
  split
  · exact h
  · exact distinct_reconcile _ moment

theorem distinct_giveUp {r : Run} (h : Distinct r.outcome) (now : Nat) :
    Distinct (r.giveUp now).outcome := by
  rw [Run.giveUp]
  split
  · exact nofun
  · split
    · exact h
    · exact h

theorem distinct_proceed {r : Run} (h : Distinct r.outcome) (q : Query) (moment : Timestamp)
    (now : Nat) : Distinct (r.proceed q moment now).outcome := by
  have hasked : Distinct (if r.next ≤ now then r.ask q moment now else r).outcome := by
    split
    · exact distinct_ask h q moment now
    · exact h
  rw [Run.proceed]
  generalize (if r.next ≤ now then r.ask q moment now else r) = r' at hasked ⊢
  split
  · exact h
  · show Distinct (if r'.ended.isSome then r' else r'.giveUp now).outcome
    split
    · exact hasked
    · exact distinct_giveUp hasked now

theorem distinct_turns (turns : List (Query × Timestamp × Nat)) {r : Run}
    (h : Distinct r.outcome) :
    Distinct (turns.foldl (fun r t => r.proceed t.1 t.2.1 t.2.2) r).outcome := by
  induction turns generalizing r with
  | nil => exact h
  | cons t rest ih => exact ih (distinct_proceed h t.1 t.2.1 t.2.2)

/-- **A snapshot that is reconciled has different peers.** -/
theorem Concludes.nodup {settings : ReconcilerSettings} {s : Snapshot}
    (h : Concludes settings s) : (s.peers.map Peer.id).Nodup := by
  obtain ⟨time, limit, turns, hturns⟩ := h
  refine distinct_turns turns (r := Run.start settings time limit) ?_ s hturns
  intro s hs
  cases hs

/-- A responder that is alone speaks for itself. -/
theorem choose_singleton (r : Responder) : choose 1 [r] = some r := by
  have hgroups : groups (sortResponders [r]) = [[r]] := by
    rw [sortResponders, List.mergeSort_singleton, groups]
    show [r] :: groups [] = _
    rw [groups]
  have hcandidates : candidates [[r]] = [[r]] := by
    rcases hsound : isSound [r] <;> simp [candidates, hsound]
  rw [choose, hgroups, hcandidates]
  rfl

end Reconciler

namespace ProxyNode

variable {σ : Type}

/-! ### The stages -/

/-- How far a start has come. -/
inductive Phase where
  | reconciling
  | writing (snapshot : Snapshot)
  | binding (snapshot : Snapshot)
  | publishing (snapshot : Snapshot) (addr : SocketAddr)
  | serving (node : ProxyNode)
  | failed (e : Error)

/-- A start under way, with the disk and the substrate around it. -/
structure Entrance (σ : Type) where
  phase : Phase
  volume : Volume
  substrate : σ

/-- The publisher of a proxy that listens at an address. -/
def publisherAt (settings : ProxySettings) (addr : SocketAddr) : Publisher :=
  ⟨settings.agent.nodeName, advertised settings addr, none⟩

/-- A disk that writes snapshots or fails, at any time and whatever it leaves behind
then.  When it says that it has written a snapshot, it has. -/
structure Disk where
  write : Snapshot → Volume → String → Volume × Except Error (List String)
  written : ∀ {snapshot v path v' names}, write snapshot v path = (v', .ok names) →
    snapshot.writeTo v path = (v', .ok names)

/-- A disk that fails only where its files stand in the way. -/
def Disk.plain : Disk := ⟨Snapshot.writeTo, id⟩

/-- One step of a start.  What is reconciled is given; files go to a disk and tags to
a substrate that may fail, and so may the socket. -/
inductive Step (S : Substrate σ) (disk : Disk) (settings : ProxySettings)
    (reconciled : Except Error Snapshot) (listen : Listen) : Entrance σ → Entrance σ → Prop
  | elsewhere {phase v s s'} (keeps : S.tags s' = S.tags s) :
    Step S disk settings reconciled listen ⟨phase, v, s⟩ ⟨phase, v, s'⟩
  | reconciled {snapshot v s} (h : reconciled = .ok snapshot) :
    Step S disk settings reconciled listen ⟨.reconciling, v, s⟩ ⟨.writing snapshot, v, s⟩
  | unreconciled {e v s} (h : reconciled = .error e) :
    Step S disk settings reconciled listen ⟨.reconciling, v, s⟩ ⟨.failed e, v, s⟩
  | written {snapshot names v v' s}
    (h : disk.write snapshot v settings.snapshotDir = (v', .ok names)) :
    Step S disk settings reconciled listen ⟨.writing snapshot, v, s⟩ ⟨.binding snapshot, v', s⟩
  | unwritten {snapshot e v v' s}
    (h : disk.write snapshot v settings.snapshotDir = (v', .error e)) :
    Step S disk settings reconciled listen ⟨.writing snapshot, v, s⟩ ⟨.failed e, v', s⟩
  | bound {snapshot addr v s} (h : listen settings.httpAddr = .ok addr) :
    Step S disk settings reconciled listen ⟨.binding snapshot, v, s⟩
      ⟨.publishing snapshot addr, v, s⟩
  | unbound {snapshot e v s} (h : listen settings.httpAddr = .error e) :
    Step S disk settings reconciled listen ⟨.binding snapshot, v, s⟩ ⟨.failed e, v, s⟩
  | published {snapshot addr t p v s s'}
    (h : (publisherAt settings addr).publish S.send s = (.ok t, p, s')) :
    Step S disk settings reconciled listen ⟨.publishing snapshot addr, v, s⟩
      ⟨.serving ⟨addr, ⟨settings.agent.nodeName, snapshot⟩, p⟩, v, s'⟩
  | unpublished {snapshot addr e p v s s'}
    (h : (publisherAt settings addr).publish S.send s = (.error e, p, s')) :
    Step S disk settings reconciled listen ⟨.publishing snapshot addr, v, s⟩ ⟨.failed e, v, s'⟩

/-- A start comes from one state to another. -/
def Reaches (S : Substrate σ) (disk : Disk) (settings : ProxySettings)
    (reconciled : Except Error Snapshot) (listen : Listen) : Entrance σ → Entrance σ → Prop :=
  Relation.ReflTransGen (Step S disk settings reconciled listen)

/-- How a start has ended. -/
def Entrance.ofResult : Except Error ProxyNode × Volume × σ → Entrance σ
  | (.ok node, v, s) => ⟨.serving node, v, s⟩
  | (.error e, v, s) => ⟨.failed e, v, s⟩

/-! ### What is behind a stage -/

/-- The files of a snapshot are all in a directory. -/
def OnDisk (path : String) (snapshot : Snapshot) (v : Volume) : Prop :=
  ∃ d, v.directory path = .ok d ∧ ∀ file ∈ snapshot.files, Snapshot.Holds d file

/-- A proxy can be found, and has all that it should have by then. -/
structure Discoverable (S : Substrate σ) (settings : ProxySettings)
    (reconciled : Except Error Snapshot) (listen : Listen) (node : ProxyNode) (v : Volume) (s : σ) :
    Prop where
  /-- It serves the snapshot that was reconciled. -/
  snapshot : reconciled = .ok node.frontEnd.snapshot
  /-- The files of the snapshot are on disk. -/
  disk : OnDisk settings.snapshotDir node.frontEnd.snapshot v
  /-- Its socket is bound. -/
  bound : listen settings.httpAddr = .ok node.httpAddr
  /-- It advertises a sealed set, with its role and the port of the socket. -/
  tags : ∃ t rest, S.tags s = some t ∧ t.unsealed = .ok rest ∧ t.get? Tag.role = some "PROXY"
    ∧ t.get? Tag.httpPort = some (Text.decimal node.httpAddr.port.toNat)

/-- What is behind a start that began with a volume and a substrate. -/
def Sound (S : Substrate σ) (settings : ProxySettings) (reconciled : Except Error Snapshot)
    (listen : Listen) (v₀ : Volume) (s₀ : σ) (x : Entrance σ) : Prop :=
  match x.phase with
  | .reconciling => S.tags x.substrate = S.tags s₀ ∧ x.volume = v₀
  | .writing snapshot => S.tags x.substrate = S.tags s₀ ∧ reconciled = .ok snapshot
  | .binding snapshot => S.tags x.substrate = S.tags s₀ ∧ reconciled = .ok snapshot
    ∧ OnDisk settings.snapshotDir snapshot x.volume
  | .publishing snapshot addr => S.tags x.substrate = S.tags s₀ ∧ reconciled = .ok snapshot
    ∧ OnDisk settings.snapshotDir snapshot x.volume ∧ listen settings.httpAddr = .ok addr
  | .serving node => Discoverable S settings reconciled listen node x.volume x.substrate
  | .failed _ => S.tags x.substrate = S.tags s₀ ∧ ∀ e, reconciled = .error e → x.volume = v₀

variable {S : Substrate σ} {disk : Disk} {settings : ProxySettings}
  {reconciled : Except Error Snapshot} {listen : Listen} {v v' v₀ : Volume} {s s' s₀ : σ}
  {x y : Entrance σ} {snapshot : Snapshot} {addr : SocketAddr} {node : ProxyNode}

/-! ### Single stages -/

/-- A snapshot that is written is on disk. -/
theorem onDisk_of_writeTo (hid : (snapshot.peers.map Peer.id).Nodup) {path : String}
    {names : List String} (h : snapshot.writeTo v path = (v', .ok names)) :
    OnDisk path snapshot v' := by
  have hlands := snapshot.lands_writeTo hid v path
  rw [h] at hlands
  cases hlands with
  | there hmade hdirectory hbefore hafter hconsistent hcomplete hsucceeds =>
    exact ⟨_, hafter, (hcomplete names rfl).2.holds⟩

theorem build_advertised (settings : ProxySettings) (addr : SocketAddr) :
    ∃ t, (advertised settings addr).build = .ok t :=
  (Advertised.build_eq_ok (a := advertised settings addr) List.nodup_nil).imp fun _ h => h.1

theorem get?_ports_advertised (settings : ProxySettings) (addr : SocketAddr) (k : String) :
    (advertised settings addr).ports.get? k =
      if k = Tag.rpcPort then some settings.agent.rpcPort
      else if k = Tag.agentPort then some settings.agent.bind.port
      else if k = Tag.httpPort then some addr.port else none := by
  show (((Table.empty.insert Tag.httpPort _).insert Tag.agentPort _).insert Tag.rpcPort _).get? k
    = _
  rw [Table.get?_insert, Table.get?_insert, Table.get?_insert, Table.get?_empty]

/-- What a proxy advertises when it starts. -/
theorem get?_advertised {t : TagSet} (h : (advertised settings addr).build = .ok t) :
    t.get? Tag.role = some "PROXY"
      ∧ t.get? Tag.httpPort = some (Text.decimal addr.port.toNat) := by
  have hget := (Advertised.build_eq_ok_iff.mp h).2
  constructor
  · rw [hget, Advertised.under?, if_neg (by decide), Advertised.value?, get?_ports_advertised]
    rfl
  · rw [hget, Advertised.under?, if_neg (by decide), Advertised.value?, get?_ports_advertised]
    rfl

/-! ### All stages -/

theorem sound_step (hid : ∀ snapshot, reconciled = .ok snapshot →
      (snapshot.peers.map Peer.id).Nodup)
    (h : Sound S settings reconciled listen v₀ s₀ x)
    (hstep : Step S disk settings reconciled listen x y) :
    Sound S settings reconciled listen v₀ s₀ y := by
  -- from the second stage on there is a snapshot, so that reconciling has not failed
  have hlater : ∀ {snapshot v}, reconciled = .ok snapshot →
      ∀ e, reconciled = .error e → v = v₀ := by
    rintro snapshot v rfl e ⟨⟩
  cases hstep with
  | @elsewhere phase v s s' keeps =>
    cases phase with
    | serving node =>
      obtain ⟨hsnapshot, hdisk, hbound, t, rest, ht, htags⟩ := h
      exact ⟨hsnapshot, hdisk, hbound, t, rest, keeps.trans ht, htags⟩
    | reconciling | writing | binding | publishing | failed => exact ⟨keeps.trans h.1, h.2⟩
  | reconciled hreconciled => exact ⟨h.1, hreconciled⟩
  | unreconciled hreconciled => exact ⟨h.1, fun _ _ => h.2⟩
  | written hwritten =>
    obtain ⟨htags, hreconciled⟩ := h
    exact ⟨htags, hreconciled, onDisk_of_writeTo (hid _ hreconciled) (disk.written hwritten)⟩
  | unwritten => exact ⟨h.1, hlater h.2⟩
  | bound hbound => exact ⟨h.1, h.2.1, h.2.2, hbound⟩
  | unbound => exact ⟨h.1, hlater h.2.1⟩
  | published hpublish =>
    -- the tags change here, with all the other stages behind
    obtain ⟨-, hreconciled, hdisk, hbound⟩ := h
    obtain ⟨t, ht, hsend, -⟩ := Publisher.exists_of_publish hpublish
    have hsealed : t.unsealed = .ok t.bare :=
      TagSet.unsealed_eq_ok_iff.mpr ⟨rfl, Advertised.build_isSealed ht⟩
    exact ⟨hreconciled, hdisk, hbound, t, t.bare, S.tags_of_send hsend, hsealed,
      get?_advertised ht⟩
  | unpublished hpublish =>
    refine ⟨?_, hlater h.2.1⟩
    have hcomes : Publisher.Call.publish.Comes S.send _ _ (.error _, _, _) :=
      Publisher.comes_publish hpublish
    cases hcomes with
    | unbuilt hbuild => exact h.1
    | refused hbuild hnew hsend => exact (S.tags_of_refused hsend).trans h.1

theorem sound_reaches (hid : ∀ snapshot, reconciled = .ok snapshot →
      (snapshot.peers.map Peer.id).Nodup)
    (h : Reaches S disk settings reconciled listen ⟨.reconciling, v₀, s₀⟩ x) :
    Sound S settings reconciled listen v₀ s₀ x := by
  induction h with
  | refl => exact ⟨rfl, rfl⟩
  | tail _ hstep ih => exact sound_step hid ih hstep

/-- The tags of a node that does not serve yet are what they were. -/
theorem Sound.tags_eq (h : Sound S settings reconciled listen v₀ s₀ x)
    (hphase : ∀ node, x.phase ≠ .serving node) : S.tags x.substrate = S.tags s₀ := by
  obtain ⟨phase, v, s⟩ := x
  cases phase with
  | serving node => exact absurd rfl (hphase node)
  | reconciling | writing | binding | publishing | failed => exact h.1

/-- Nothing is written when nothing is reconciled. -/
theorem Sound.volume_eq (h : Sound S settings reconciled listen v₀ s₀ x) {e : Error}
    (he : reconciled = .error e) : x.volume = v₀ := by
  obtain ⟨phase, v, s⟩ := x
  -- later phases have a snapshot
  have hnone : ∀ snapshot, reconciled ≠ .ok snapshot := by
    rintro snapshot rfl
    cases he
  cases phase with
  | reconciling => exact h.2
  | writing => exact absurd h.2 (hnone _)
  | binding | publishing => exact absurd h.2.1 (hnone _)
  | serving => exact absurd h.snapshot (hnone _)
  | failed => exact h.2 e he

/-- When the tags change all files are on disk. -/
theorem Sound.onDisk_of_tags_ne (h : Sound S settings reconciled listen v₀ s₀ x)
    (hstep : Step S disk settings reconciled listen x y)
    (hne : S.tags y.substrate ≠ S.tags x.substrate) :
    ∃ snapshot, reconciled = .ok snapshot ∧ OnDisk settings.snapshotDir snapshot x.volume := by
  cases hstep with
  | elsewhere keeps => exact absurd keeps hne
  | published | unpublished => exact ⟨_, h.2.1, h.2.2.1⟩
  | reconciled | unreconciled | written | unwritten | bound | unbound => exact absurd rfl hne

/-! ### The function that starts a proxy -/

/-- Once a proxy listens all depends on whether it can publish. -/
theorem enter_of_listen (hlisten : listen settings.httpAddr = .ok addr) {r : Except Error TagSet}
    {p : Publisher} (hpublish : (publisherAt settings addr).publish S.send s = (r, p, s')) :
    enter settings snapshot listen S.send s
      = (r.map fun _ => ⟨addr, ⟨settings.agent.nodeName, snapshot⟩, p⟩, s') := by
  rw [publisherAt] at hpublish
  simp only [enter, hlisten, hpublish]

theorem enter_of_listen_error {e : Error} (hlisten : listen settings.httpAddr = .error e) :
    enter settings snapshot listen S.send s = (.error e, s) := by
  simp only [enter, hlisten]

/-- A start succeeds if all stages do. -/
theorem start_eq_ok_iff : start settings reconciled listen S.send v s = (.ok node, v', s') ↔
    ∃ snapshot names addr t p, reconciled = .ok snapshot
      ∧ snapshot.writeTo v settings.snapshotDir = (v', .ok names)
      ∧ listen settings.httpAddr = .ok addr
      ∧ (publisherAt settings addr).publish S.send s = (.ok t, p, s')
      ∧ node = ⟨addr, ⟨settings.agent.nodeName, snapshot⟩, p⟩ := by
  constructor
  · intro h
    rcases reconciled with e | snapshot
    · cases h
    rw [start] at h
    rcases hwrite : snapshot.writeTo v settings.snapshotDir with ⟨v₁, e | names⟩
    · simp only [hwrite] at h
      cases h
    cases hlisten : listen settings.httpAddr with
    | error e =>
      simp only [hwrite, enter_of_listen_error hlisten] at h
      cases h
    | ok addr =>
      rcases hpublish : (publisherAt settings addr).publish S.send s with ⟨e | t, p, s₁⟩
      · simp only [hwrite, enter_of_listen hlisten hpublish, Except.map] at h
        cases h
      · simp only [hwrite, enter_of_listen hlisten hpublish, Except.map] at h
        cases h
        exact ⟨snapshot, names, addr, t, p, rfl, hwrite, rfl, hpublish, rfl⟩
  · rintro ⟨snapshot, names, addr, t, p, rfl, hwrite, hlisten, hpublish, rfl⟩
    simp only [start, hwrite, enter_of_listen hlisten hpublish, Except.map]

/-- **The start of a proxy is one run of the stages.** -/
theorem reaches_start (S : Substrate σ) (settings : ProxySettings)
    (reconciled : Except Error Snapshot) (listen : Listen) (v : Volume) (s : σ) :
    Reaches S .plain settings reconciled listen ⟨.reconciling, v, s⟩
      (.ofResult (start settings reconciled listen S.send v s)) := by
  -- one rule for each stage that the function comes to, until one fails
  cases hreconciled : reconciled with
  | error e => exact .single (.unreconciled rfl)
  | ok snapshot =>
    refine .head (.reconciled rfl) ?_
    rw [start]
    rcases hwrite : snapshot.writeTo v settings.snapshotDir with ⟨v', e | names⟩
    · exact .single (.unwritten hwrite)
    refine .head (.written hwrite) ?_
    cases hlisten : listen settings.httpAddr with
    | error e =>
      simp only [enter_of_listen_error hlisten]
      exact .single (.unbound hlisten)
    | ok addr =>
      refine .head (.bound hlisten) ?_
      rcases hpublish : (publisherAt settings addr).publish S.send s with ⟨e | t, p, s'⟩
      · simp only [enter_of_listen hlisten hpublish]
        exact .single (.unpublished hpublish)
      · simp only [enter_of_listen hlisten hpublish]
        exact .single (.published hpublish)

/-- **No proxy is half started.**  However the stages of a start come out, whatever
a disk that fails leaves behind and whatever happens around them, the tags of the
node are as they were until it serves, a node that serves has all it should have,
nothing is written when nothing is reconciled, and when the tags change all files
are on disk already.  The function that starts a proxy is a run of these stages: if
it fails the tags are as they were, and if it succeeds the proxy can be found. -/
theorem never_half_started (S : Substrate σ) {settings : ProxySettings}
    {reconciled : Except Error Snapshot}
    (hreconciled : ∀ snapshot, reconciled = .ok snapshot →
      Reconciler.Concludes settings.reconciler snapshot) (listen : Listen) (v : Volume) (s : σ) :
    (∀ disk x, Reaches S disk settings reconciled listen ⟨.reconciling, v, s⟩ x →
      ((∀ node, x.phase ≠ .serving node) → S.tags x.substrate = S.tags s)
      ∧ (∀ node, x.phase = .serving node →
        Discoverable S settings reconciled listen node x.volume x.substrate)
      ∧ ((∃ e, reconciled = .error e) → x.volume = v)
      ∧ ∀ y, Step S disk settings reconciled listen x y → S.tags y.substrate ≠ S.tags x.substrate →
        ∃ snapshot, reconciled = .ok snapshot ∧ OnDisk settings.snapshotDir snapshot x.volume)
    ∧ Reaches S .plain settings reconciled listen ⟨.reconciling, v, s⟩
      (.ofResult (start settings reconciled listen S.send v s))
    ∧ (∀ e v' s', start settings reconciled listen S.send v s = (.error e, v', s') →
      S.tags s' = S.tags s ∧ ((∃ e, reconciled = .error e) → v' = v))
    ∧ ∀ node v' s', start settings reconciled listen S.send v s = (.ok node, v', s') →
      Discoverable S settings reconciled listen node v' s' := by
  have hid : ∀ snapshot, reconciled = .ok snapshot → (snapshot.peers.map Peer.id).Nodup :=
    fun snapshot h => (hreconciled snapshot h).nodup
  have hstart := reaches_start S settings reconciled listen v s
  refine ⟨fun disk x hx => ?_, hstart, ?_, ?_⟩
  · have hsound := sound_reaches hid hx
    refine ⟨hsound.tags_eq, ?_, ?_, fun y => hsound.onDisk_of_tags_ne⟩
    · intro node hnode
      obtain ⟨phase, v', s'⟩ := x
      subst hnode
      exact hsound
    · rintro ⟨e, he⟩
      exact hsound.volume_eq he
  · intro e v' s' hfails
    rw [hfails] at hstart
    have hsound := sound_reaches hid hstart
    refine ⟨hsound.1, ?_⟩
    rintro ⟨e', he'⟩
    exact hsound.2 e' he'
  · intro node v' s' hsucceeds
    rw [hsucceeds] at hstart
    exact sound_reaches hid hstart

/-! ### A gateway

A proxy in front of a cluster of one member. -/

/-- Its settings; the port is any that is free. -/
def gateway : ProxySettings where
  agent := ⟨"p", ⟨.v4 (.zero 4), 7000, 0⟩, 7001, [], .ofMillis 500, .ofMillis 5000⟩
  httpAddr := ⟨.v4 (.zero 4), 0, 0⟩
  snapshotDir := "snap"
  reconciler := {}
  leaderRefreshInterval := .ofMillis 1000
  connectionLimit := 64
  requestTimeout := .ofMillis 5000

/-- A disk with an empty directory for the snapshot. -/
def gatewayDisk : Volume :=
  ⟨Table.ofList [("", Table.ofList [("snap", .folder)]), ("snap", Table.empty)]⟩

/-- A socket that gets a certain port. -/
def listenAt (port : UInt16) : Listen := fun addr => .ok { addr with port }

/-- The board on which the gateway is known. -/
def gatewayBoard : Board := Board.join {} "p" default

/-- What the member of the cluster advertises is reconciled. -/
theorem concludes_lone : Reconciler.Concludes gateway.reconciler Snapshot.lone := by
  let a : Advertised :=
    { role := .server, clusterId := some Uuid.nil, peers := Snapshot.lone.peers }
  have hids : (a.peers.map Peer.id).Nodup := by decide
  obtain ⟨t, -, hsealed, hget⟩ := Advertised.build_eq_ok hids
  have hcluster : t.get? Tag.cluster = some Uuid.nil.text :=
    (hget _ (by decide)).trans (Reconciler.value?_cluster rfl rfl)
  have hpeers : Reconciler.peersOf t.bare.toList = Snapshot.lone.peers := by
    -- neither list repeats anything, so it is enough that they have the same peers
    have hnodup := (Reconciler.nodup_ids_peersOf t.bare.ascending.nodup_keys).of_map
    refine List.perm_singleton.mp ((List.perm_ext_iff_of_nodup hnodup (List.nodup_singleton _)).mpr
      fun p => ?_)
    rw [Reconciler.mem_peersOf_bare, hget _ (Peer.compactId_ne (by decide) p.id)]
    exact Reconciler.value?_compactId hids rfl rfl
  have hresult : (Reconciler.reconcile t ⟨0, 0⟩).result = .ok Snapshot.lone := by
    have hread : Reconciler.clusterOf (some Uuid.nil.text) = .ok Uuid.nil :=
      Reconciler.clusterOf_eq_ok_iff.mpr ⟨_, rfl, Uuid.parse_text _⟩
    rw [Reconciler.reconcile_of_isSealed hsealed, hcluster, hread, hpeers]
    show Except.ok (Snapshot.mk _ (Peer.sort [_]) _) = _
    rw [Peer.sort, List.mergeSort_singleton]
    rfl
  refine ⟨0, .ofMillis 0, [(.ok [("m", t)], ⟨0, 0⟩, 0)], ?_⟩
  have hpoll : Reconciler.poll gateway.reconciler (.ok [("m", t)]) = some ("m", t) :=
    Reconciler.choose_singleton _
  simp only [List.foldl_cons, List.foldl_nil, Reconciler.Run.proceed, Reconciler.Run.start,
    Reconciler.Run.ask, hpoll, hresult,
    Option.isSome_none, Option.isSome_some, Nat.le_refl, if_true, if_false, reduceCtorEq]

/-- The gateway starts. -/
theorem gateway_starts : ∃ node v b, start gateway (.ok Snapshot.lone) (listenAt 8080)
    (Substrate.ofBoard "p").send gatewayDisk gatewayBoard = (.ok node, v, b) := by
  have hdirectory : gatewayDisk.directory gateway.snapshotDir = .ok Table.empty := by
    decide +kernel
  have hwrite := Snapshot.writeTo_of_directory (s := Snapshot.lone)
    (Volume.makeDirectory_of_directory hdirectory) hdirectory
  -- no folder is in the way where there is nothing at all
  obtain ⟨names, hnames⟩ :=
    (Snapshot.writeInto_isOk_iff (s := Snapshot.lone) (by decide) Table.empty).mpr fun _ _ => nofun
  rw [hnames] at hwrite
  obtain ⟨t, ht⟩ := build_advertised gateway { gateway.httpAddr with port := 8080 }
  have hsend : (Substrate.ofBoard "p").send t gatewayBoard = (.ok (), _) := rfl
  have hpublish := Publisher.publish_taken (p := publisherAt gateway _) ht hsend
  exact ⟨_, _, _, start_eq_ok_iff.mpr ⟨_, _, _, _, _, rfl, hwrite, rfl, hpublish, rfl⟩⟩

/-- The gateway can be found at the port that its socket got. -/
theorem never_half_started_gateway : Reconciler.Concludes gateway.reconciler Snapshot.lone
    ∧ ∃ node v b, start gateway (.ok Snapshot.lone) (listenAt 8080) (Substrate.ofBoard "p").send
        gatewayDisk gatewayBoard = (.ok node, v, b)
      ∧ Discoverable (Substrate.ofBoard "p") gateway (.ok Snapshot.lone) (listenAt 8080) node v b
      ∧ node.httpAddr.port = 8080 := by
  have hreconciled : ∀ snapshot, (.ok Snapshot.lone : Except Error Snapshot) = .ok snapshot →
      Reconciler.Concludes gateway.reconciler snapshot := by
    rintro snapshot ⟨⟩
    exact concludes_lone
  obtain ⟨node, v, b, hstart⟩ := gateway_starts
  have hfound := (never_half_started (Substrate.ofBoard "p") hreconciled (listenAt 8080)
    gatewayDisk gatewayBoard).2.2.2 node v b hstart
  have haddr : node.httpAddr = { gateway.httpAddr with port := 8080 } :=
    (Except.ok.inj hfound.bound).symm
  exact ⟨concludes_lone, node, v, b, hstart, hfound, by rw [haddr]⟩

end ProxyNode

end Rendezvous
