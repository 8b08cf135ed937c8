/-
Rendezvous/Proofs/Directory.lean

A snapshot read back from its directory.

The name of a peer file is cut into the identifier of the peer and the extension
(`splitName_peerFileName`), and the file is read back as the peer
(`readFile_peerFileName`).  A listing of names in which every peer file is one of
the snapshot is read file by file, whatever stands between them
(`readListed_listing`), so a listing of the whole directory gives the peers in the
order of the listing, and sorting gives back the snapshot.  Work on a snapshot adds
no other peer files, so this is what is read when all the work is done
(`reread`).
-/
import Rendezvous.Proofs.Lines
import Rendezvous.Proofs.Peer
import Rendezvous.Proofs.Snapshot

namespace Rendezvous

/-! ### Names -/

/-- A name is cut at its last point. -/
theorem splitName_append {stem ext : String} (hstem : stem.toList ≠ [])
    (hext : '.' ∉ ext.toList) : splitName (stem ++ ("." ++ ext)) = (stem, some ext) := by
  -- the name is looked at from its end, up to the first point
  have hback : (stem ++ ("." ++ ext)).toList.reverse
      = ext.toList.reverse ++ '.' :: stem.toList.reverse := by
    simp
  have hpoints : ∀ c ∈ ext.toList.reverse, (c != '.') = true := fun c hc =>
    bne_iff_ne.mpr fun heq => hext (heq ▸ List.mem_reverse.mp hc)
  have htake : (ext.toList.reverse ++ '.' :: stem.toList.reverse).takeWhile (· != '.')
      = ext.toList.reverse := by
    refine (Text.takeWhile_dropWhile_append hpoints ?_).1
    rintro _ ⟨⟩
    rfl
  have hdrop : (ext.toList.reverse ++ '.' :: stem.toList.reverse).drop
      (ext.toList.reverse.length + 1) = stem.toList.reverse := by
    rw [← List.drop_drop, List.drop_left]
    rfl
  simp only [splitName, hback, htake, hdrop, List.reverse_reverse, String.ofList_toList]
  refine if_neg ?_
  rintro (hlength | hempty)
  · simp at hlength
  · exact hstem (List.isEmpty_iff.mp hempty)

namespace Snapshot

open Volume

variable {s : Snapshot} {d d' : Directory} {v : Volume} {path : String}

/-! ### One file -/

theorem splitName_peerFileName (p : Peer) :
    splitName (peerFileName p) = (p.id.text, some Peer.extension) := by
  have hend : ".peer" = "." ++ Peer.extension := by decide
  rw [peerFileName, hend]
  exact splitName_append (Text.isWord_uuid p.id).1 (by decide)

theorem splitName_descriptorName (s : Snapshot) :
    splitName s.descriptorName = (s.clusterId.text, some "raft") := by
  have hend : ".raft" = "." ++ "raft" := by decide
  rw [descriptorName, hend]
  exact splitName_append (Text.isWord_uuid s.clusterId).1 (by decide)

/-- **The file of a peer is read back as that peer.** -/
theorem readFile_peerFileName {p : Peer} (h : Holds d (peerFileName p, s.peerFile p)) :
    Peer.readFile path d (peerFileName p) p.id.text = .ok p := by
  rw [Peer.readFile, Uuid.parse_text]
  simp only [Directory.readText_of_get? h, ofLines_peerFile]

/-! ### A listing -/

theorem isFileName_peerFileName (p : Peer) : Peer.isFileName (peerFileName p) := by
  rw [Peer.isFileName, splitName_peerFileName]
  exact decide_eq_true rfl

theorem isFileName_descriptorName (s : Snapshot) : Peer.isFileName s.descriptorName = false := by
  have hne : some "raft" ≠ some Peer.extension := by decide
  rw [Peer.isFileName, splitName_descriptorName]
  exact decide_eq_false hne

/-- **The files among listed names are read in their order**, if they are those of
peers. -/
theorem readListed_listing {names : List String}
    (hholds : ∀ p ∈ s.peers, Holds d (peerFileName p, s.peerFile p))
    (hnames : ∀ name ∈ names, Peer.isFileName name → name ∈ s.peers.map peerFileName) :
    ∃ ps, Peer.readListed path d names = .ok ps ∧ ps ⊆ s.peers
      ∧ ps.map peerFileName = names.filter Peer.isFileName := by
  induction names with
  | nil => exact ⟨[], rfl, nofun, rfl⟩
  | cons name names ih =>
    obtain ⟨ps, hread, hsub, hmap⟩ := ih fun name' hname' => hnames name' (by simp [hname'])
    by_cases hpeer : Peer.isFileName name
    · obtain ⟨p, hp, rfl⟩ := List.mem_map.mp (hnames name List.mem_cons_self hpeer)
      refine ⟨p :: ps, ?_, List.cons_subset.mpr ⟨hp, hsub⟩, ?_⟩
      · exact Peer.readListed_cons (splitName_peerFileName p)
          (readFile_peerFileName (hholds p hp)) hread
      · rw [List.map_cons, hmap, List.filter_cons_of_pos hpeer]
    · rw [Peer.readListed_cons_of_not hpeer, List.filter_cons_of_neg hpeer]
      exact ⟨ps, hread, hsub, hmap⟩

/-- A listing of the whole directory gives all peers, in some order. -/
theorem readListed_directory {names : List String} (hid : (s.peers.map Peer.id).Nodup)
    (hperm : names.Perm d.keys)
    (hholds : ∀ p ∈ s.peers, Holds d (peerFileName p, s.peerFile p))
    (hnames : ∀ name ∈ d.keys, Peer.isFileName name → name ∈ s.peers.map peerFileName) :
    ∃ ps, Peer.readListed path d names = .ok ps ∧ ps.Perm s.peers := by
  obtain ⟨ps, hread, hsub, hmap⟩ := readListed_listing hholds
    fun name hname => hnames name (hperm.mem_iff.mp hname)
  refine ⟨ps, hread, ?_⟩
  have hnodup : (ps.map peerFileName).Nodup := by
    rw [hmap]
    exact (hperm.nodup_iff.mpr d.ascending.nodup_keys).filter _
  refine (List.perm_ext_iff_of_nodup hnodup.of_map hid.of_map).mpr fun p => ⟨fun hp => hsub hp, ?_⟩
  intro hp
  -- the file of the peer is listed, so it is that of a peer that was read
  have hlisted : peerFileName p ∈ ps.map peerFileName := by
    rw [hmap, List.mem_filter, hperm.mem_iff, Table.mem_keys_iff]
    have hfile : d.get? (peerFileName p) = some _ := hholds p hp
    rw [hfile]
    exact ⟨rfl, isFileName_peerFileName p⟩
  obtain ⟨q, hq, hname⟩ := List.mem_map.mp hlisted
  rwa [← List.inj_on_of_nodup_map hid (hsub hq) hp (id_eq_of_peerFileName_eq hname)]

/-! ### The directory of a snapshot -/

/-- A directory that can take the files of a snapshot and has no other peer files:
no folder has one of the names to write, and all names with the extension of a peer
file are those of files of the snapshot. -/
structure Receives (s : Snapshot) (d : Directory) : Prop where
  free : ∀ name ∈ touched s.fileNames, d.get? name ≠ some .folder
  alone : ∀ name ∈ d.keys, Peer.isFileName name → name ∈ s.peers.map peerFileName

/-- All the work on a snapshot adds no peer files but its own. -/
theorem Complete.alone (hcomplete : s.Complete d') (hsame : SameExcept (touched s.fileNames) d d')
    (hreceives : s.Receives d) :
    ∀ name ∈ d'.keys, Peer.isFileName name → name ∈ s.peers.map peerFileName := by
  intro name hname hpeer
  by_cases htouched : name ∈ touched s.fileNames
  · rcases List.mem_append.mp htouched with htarget | htemporary
    · rcases List.mem_append.mp htarget with hfile | hdescriptor
      · exact hfile
      · rw [List.mem_singleton.mp hdescriptor, isFileName_descriptorName] at hpeer
        cases hpeer
    · -- no temporary file is left
      obtain ⟨target, htarget, rfl⟩ := List.mem_map.mp htemporary
      rw [Table.mem_keys_iff, hcomplete.clean target htarget] at hname
      cases hname
  · rw [Table.mem_keys_iff, hsame name htouched, ← Table.mem_keys_iff] at hname
    exact hreceives.alone name hname hpeer

/-- What is written into a directory is read from any listing of it. -/
theorem readListed_writeInto (hid : (s.peers.map Peer.id).Nodup) (hreceives : s.Receives d) :
    (s.writeInto d).2 = .ok s.fileNames
      ∧ ∀ path names, names.Perm (s.writeInto d).1.keys →
        (Peer.readListed path (s.writeInto d).1 names).map Peer.sort
          = .ok (Peer.sort s.peers) := by
  obtain ⟨written, hwritten⟩ := (writeInto_isOk_iff hid d).mpr hreceives.free
  obtain ⟨rfl, hcomplete⟩ := writeInto_eq_ok hid hwritten
  refine ⟨hwritten, fun path names hperm => ?_⟩
  -- what has not been touched is as it was before
  have hsame : SameExcept (touched s.fileNames) d (s.writeInto d).1 :=
    (consistent_of_stops hid (stops_runSteps d s.steps)).others
  have hholds : ∀ p ∈ s.peers, Holds (s.writeInto d).1 (peerFileName p, s.peerFile p) :=
    fun p hp => hcomplete.holds _ (List.mem_append_left _ (List.mem_map_of_mem hp))
  obtain ⟨ps, hread, hps⟩ := readListed_directory hid hperm hholds
    (hcomplete.alone hsame hreceives)
  have hpsid : (ps.map Peer.id).Nodup := (hps.map Peer.id).nodup_iff.mpr hid
  rw [hread, Except.map, Peer.sort_eq_of_perm hps hpsid]

/-- **A snapshot is read back from its directory.**  The file of a peer is read back
as that peer.  A snapshot of peers with pairwise different identifiers is put into
any directory that can take it, one that is there or one that is made, and what is
read there is the snapshot, in whatever order the directory is listed. -/
theorem readVolume_writeTo :
    (∀ (s : Snapshot) (p : Peer), Peer.ofLines p.id (s.peerFile p) = .ok p)
    ∧ ∀ (clusterId : Uuid) (peers : List Peer) (moment : Timestamp), (peers.map Peer.id).Nodup →
      ∀ (v : Volume) (path : String) (d : Directory),
        (v.directory path = .ok d
          ∨ ∃ made, v.makeDirectory path = .ok made ∧ made.directory path = .ok d) →
        (ofPeers clusterId peers moment).Receives d →
        let s := ofPeers clusterId peers moment
        (s.writeTo v path).2 = .ok s.fileNames
          ∧ Peer.readVolume (s.writeTo v path).1 path = .ok s.peers
          ∧ ∀ d' names, (s.writeTo v path).1.directory path = .ok d' → names.Perm d'.keys →
            (Peer.readListed path d' names).map Peer.sort = .ok s.peers := by
  refine ⟨ofLines_peerFile, ?_⟩
  intro clusterId peers moment hnodup v path d hfound hreceives s
  have hid : (s.peers.map Peer.id).Nodup :=
    ((Peer.sort_perm peers).map Peer.id).nodup_iff.mpr hnodup
  have hsorted : Peer.sort s.peers = s.peers := Peer.sort_eq_of_perm (Peer.sort_perm peers) hid
  obtain ⟨made, hmade, hdirectory⟩ : ∃ made, v.makeDirectory path = .ok made
      ∧ made.directory path = .ok d := by
    rcases hfound with hd | hmade
    · exact ⟨v, makeDirectory_of_directory hd, hd⟩
    · exact hmade
  obtain ⟨hwritten, hread⟩ := readListed_writeInto hid hreceives
  rw [hsorted] at hread
  have hafter : (s.writeTo v path).1.directory path = .ok (s.writeInto d).1 := by
    rw [writeTo_of_directory hmade hdirectory]
    exact directory_setDirectory hdirectory fun name => s.keepsFolders_steps d name
  refine ⟨?_, ?_, ?_⟩
  · rw [writeTo_of_directory hmade hdirectory, hwritten]
    rfl
  · rw [Peer.readVolume, hafter]
    exact hread _ _ (List.Perm.refl _)
  · intro d' names hd' hperm
    rw [hafter] at hd'
    cases hd'
    exact hread path names hperm

/-- A directory with an old file of a member, and what is no file of a member. -/
def worn : Directory :=
  Table.ofList [("00000000-0000-0000-0000-000000000000.peer", .file []), ("notes.txt", .file []),
    (".peer", .folder)]

/-- A volume with that directory. -/
def shelf : Volume := ⟨Table.ofList [("", Table.ofList [("ctl", .folder)]), ("ctl", worn)]⟩

theorem readVolume_writeTo_pair :
    let s := ofPeers Uuid.nil pair ⟨0, 0⟩
    (pair.map Peer.id).Nodup ∧ shelf.directory "ctl" = .ok worn ∧ s.Receives worn
      ∧ (s.writeTo shelf "ctl").2 = .ok s.fileNames
      ∧ Peer.readVolume (s.writeTo shelf "ctl").1 "ctl" = .ok pair.reverse := by
  intro s
  have hid : (pair.map Peer.id).Nodup := by decide
  have hascending : Peer.Ascending pair.reverse :=
    List.pairwise_pair.mpr (show _ < _ by decide)
  have hsorted : Peer.sort pair = pair.reverse :=
    (Peer.ascending_sort hid).eq_of_perm hascending
      ((Peer.sort_perm pair).trans (List.reverse_perm pair).symm)
  have hs : s = couple := congrArg (Snapshot.mk _ · _) hsorted
  have hdirectory : shelf.directory "ctl" = .ok worn := by decide +kernel
  have hreceives : s.Receives worn := by
    rw [hs]
    exact ⟨by decide +kernel, by decide +kernel⟩
  obtain ⟨hwritten, hread, -⟩ := readVolume_writeTo.2 Uuid.nil pair ⟨0, 0⟩ hid shelf "ctl" worn
    (Or.inl hdirectory) hreceives
  exact ⟨hid, hdirectory, hreceives, hwritten, hsorted ▸ hread⟩

end Snapshot

end Rendezvous
