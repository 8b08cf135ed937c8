/-
Rendezvous/Proofs/Snapshot.lean

Snapshots on disk.

Work on a snapshot may stop at any operation, and any operation may fail.  Its
files are written one after the other, those of the peers in their order and
the descriptor last, and each of them is replaced as a whole: where the work
stops, the files of the first peers are new, the others are as they were, and
the descriptor is as it was unless all the files of the peers are new
(`Consistent`).  When nothing fails, all files are new and no temporary file is
left (`Complete`), and nothing fails but for a folder in the way
(`writeInto_isOk_iff`).

A descriptor that already has the text of the new one is no sign that the files
of the peers are there: it is as it was (`descriptor_before_peers`).
-/
import Rendezvous.Proofs.Files
import Rendezvous.Proofs.Uuid
import Rendezvous.Proofs.Volume

namespace Rendezvous

namespace Snapshot

open Volume

variable {s : Snapshot} {d d' : Directory} {v : Volume} {path : String}

/-! ### The files of a snapshot -/

/-- The files of the peers, in the order of the peers. -/
def peerFiles (s : Snapshot) : List (String × String) :=
  s.peers.map fun p => (peerFileName p, s.peerFile p)

/-- All files, the descriptor last. -/
def files (s : Snapshot) : List (String × String) :=
  s.peerFiles ++ [(s.descriptorName, s.descriptor)]

theorem names_files (s : Snapshot) : s.files.map Prod.fst = s.fileNames := by
  rw [files, List.map_append, peerFiles, List.map_map, fileNames]
  rfl

theorem filter_steps (s : Snapshot) : s.steps.filter (· ≠ .sync) = filesSteps s.files := by
  rw [steps, files, filesSteps, peerFiles, List.flatMap_append, List.flatMap_map,
    List.flatMap_singleton]
  simp only [List.filter_append, List.filter_flatMap]
  rw [List.append_assoc]
  rfl

theorem runSteps_steps (s : Snapshot) (d : Directory) :
    runSteps d s.steps = runSteps d (filesSteps s.files) := by
  rw [← filter_steps, runSteps_filter_sync]

/-! ### Their names

A name is told from that of a temporary file by its last character. -/

theorem getLast?_temporary (name : String) : (temporary name).toList.getLast? = some 'p' := by
  rw [temporary, String.toList_append, List.getLast?_append_of_ne_nil _ (by simp)]
  rfl

theorem getLast?_peerFileName (p : Peer) : (peerFileName p).toList.getLast? = some 'r' := by
  rw [peerFileName, String.toList_append, List.getLast?_append_of_ne_nil _ (by simp)]
  rfl

theorem getLast?_descriptorName (s : Snapshot) :
    s.descriptorName.toList.getLast? = some 't' := by
  rw [descriptorName, String.toList_append, List.getLast?_append_of_ne_nil _ (by simp)]
  rfl

theorem id_eq_of_peerFileName_eq {p q : Peer} (h : peerFileName p = peerFileName q) :
    p.id = q.id := by
  rw [peerFileName, peerFileName, ← String.toList_inj, String.toList_append,
    String.toList_append, List.append_cancel_right_eq, String.toList_inj] at h
  exact Except.ok.inj ((Uuid.parse_text p.id).symm.trans (h ▸ Uuid.parse_text q.id))

/-- **Files of different peers do not meet**, nor do they meet the descriptor or
a temporary file. -/
theorem separate_fileNames (hid : (s.peers.map Peer.id).Nodup) : Separate s.fileNames := by
  have hlast : ∀ name ∈ s.fileNames, name.toList.getLast? ≠ some 'p' := by
    intro name hname
    rcases List.mem_append.mp hname with hpeer | hdescriptor
    · obtain ⟨p, -, rfl⟩ := List.mem_map.mp hpeer
      simp [getLast?_peerFileName]
    · rw [List.mem_singleton.mp hdescriptor, getLast?_descriptorName]
      decide
  constructor
  · refine List.nodup_append.mpr ⟨?_, List.nodup_singleton _, ?_⟩
    · refine hid.of_map.map_on fun p hp q hq heq => ?_
      exact List.inj_on_of_nodup_map hid hp hq (id_eq_of_peerFileName_eq heq)
    · intro name hname name' hname' heq
      obtain ⟨p, -, rfl⟩ := List.mem_map.mp hname
      have hsame := getLast?_peerFileName p
      rw [heq, List.mem_singleton.mp hname', getLast?_descriptorName] at hsame
      cases hsame
  · intro name hname hmem
    obtain ⟨name', -, rfl⟩ := List.mem_map.mp hmem
    exact hlast _ hname (getLast?_temporary name')

theorem separate_files (hid : (s.peers.map Peer.id).Nodup) :
    Separate (s.files.map Prod.fst) := s.names_files ▸ separate_fileNames hid

/-! ### Where the work stops -/

/-- What a directory may hold after work on a snapshot. -/
structure Consistent (s : Snapshot) (d d' : Directory) : Prop where
  /-- The files of the first peers are new and those of the others as they were. -/
  peers : FirstReplaced s.peerFiles d d'
  /-- The descriptor is as it was, or new with all the files of the peers. -/
  descriptor : d'.get? s.descriptorName = d.get? s.descriptorName
    ∨ ∀ file ∈ s.files, Holds d' file
  /-- Nothing else is touched but the temporary files. -/
  others : SameExcept (touched s.fileNames) d d'

/-- What a directory holds after all the work on a snapshot. -/
structure Complete (s : Snapshot) (d' : Directory) : Prop where
  holds : ∀ file ∈ s.files, Holds d' file
  clean : ∀ name ∈ s.fileNames, d'.get? (temporary name) = none

/-- All files but the last are files among which the first are replaced. -/
theorem FirstReplaced.split {files : List (String × String)} {last : String × String}
    (h : FirstReplaced (files ++ [last]) d d') :
    FirstReplaced files d d' ∧ (d'.get? last.1 = d.get? last.1
      ∨ ∀ file ∈ files ++ [last], Holds d' file) := by
  obtain ⟨done, rest, hsplit, hnew, hold⟩ := h
  rcases List.eq_nil_or_concat rest with rfl | ⟨rest, file, rfl⟩
  · -- all files are replaced
    rw [List.append_nil] at hsplit
    refine ⟨⟨files, [], (List.append_nil _).symm, ?_, nofun⟩, Or.inr ?_⟩
    · intro file hfile
      exact hnew file (hsplit ▸ List.mem_append_left _ hfile)
    · exact hsplit ▸ hnew
  · rw [List.concat_eq_append, ← List.append_assoc] at hsplit
    obtain ⟨hfiles, hlast⟩ := List.append_inj' hsplit rfl
    cases hlast
    refine ⟨⟨done, rest, hfiles, hnew, ?_⟩, Or.inl ?_⟩
    · intro file hfile
      exact hold file (by simp [hfile])
    · exact hold last (by simp)

theorem consistent_of_stops (hid : (s.peers.map Peer.id).Nodup) (h : Stops s.steps d d') :
    s.Consistent d d' := by
  have hstops : Stops (filesSteps s.files) d d' := s.filter_steps ▸ stops_filter_sync h
  obtain ⟨hfiles, hothers⟩ := stops_filesSteps (separate_files hid) hstops
  obtain ⟨hpeers, hdescriptor⟩ := hfiles.split
  exact ⟨hpeers, hdescriptor, s.names_files ▸ hothers⟩

theorem complete_of_runSteps (hid : (s.peers.map Peer.id).Nodup)
    (h : runSteps d s.steps = (d', .ok ())) : s.Complete d' := by
  rw [runSteps_steps] at h
  obtain ⟨hall, -⟩ := completes_filesSteps (separate_files hid) h
  refine ⟨fun file hfile => (hall file hfile).1, ?_⟩
  intro name hname
  rw [← names_files] at hname
  obtain ⟨file, hfile, rfl⟩ := List.mem_map.mp hname
  exact (hall file hfile).2

/-! ### Running it -/

theorem keepsFolders_steps (s : Snapshot) : KeepsFolders s.steps := by
  intro d name hname
  rw [runSteps_steps]
  exact keepsFolders_flatMap (fun file _ => keepsFolders_fileSteps _ _) d name hname

/-- A run that does all the work. -/
theorem writeInto_eq_ok (hid : (s.peers.map Peer.id).Nodup) {names : List String}
    (h : (s.writeInto d).2 = .ok names) :
    names = s.fileNames ∧ s.Complete (s.writeInto d).1 := by
  obtain ⟨⟨⟩, hrun, rfl⟩ := Except.map_eq_ok_iff.mp h
  exact ⟨rfl, complete_of_runSteps hid (Prod.ext rfl hrun)⟩

/-- A folder in the way is still there after a run, which has not done all the
work then; and if there is none, nothing fails. -/
theorem writeInto_isOk_iff (hid : (s.peers.map Peer.id).Nodup) (d : Directory) :
    (∃ names, (s.writeInto d).2 = .ok names)
      ↔ ∀ name ∈ touched s.fileNames, d.get? name ≠ some .folder := by
  constructor
  · rintro ⟨names, hnames⟩ name hname hfolder
    obtain ⟨hholds, hclean⟩ := (writeInto_eq_ok hid hnames).2
    have hkept : (s.writeInto d).1.get? name = some .folder :=
      s.keepsFolders_steps d name hfolder
    rcases List.mem_append.mp hname with htarget | htemporary
    · rw [← names_files] at htarget
      obtain ⟨file, hfile, rfl⟩ := List.mem_map.mp htarget
      cases (hholds file hfile).symm.trans hkept
    · obtain ⟨target, htarget, rfl⟩ := List.mem_map.mp htemporary
      cases (hclean target htarget).symm.trans hkept
  · intro hfree
    rw [← names_files] at hfree
    obtain ⟨d', hrun⟩ := runs_filesSteps (separate_files hid) hfree
    rw [← runSteps_steps] at hrun
    refine ⟨s.fileNames, Except.map_eq_ok_iff.mpr ⟨(), ?_, rfl⟩⟩
    rw [hrun]

/-- What a run makes of a volume. -/
inductive Lands (s : Snapshot) (v : Volume) (path : String) :
    Volume → Except Error (List String) → Prop
  /-- There is no directory at the path, and none that can be made. -/
  | nowhere {v' e} (hbefore : ∀ d, v.directory path ≠ .ok d)
    (hafter : ∀ d, v'.directory path ≠ .ok d) : Lands s v path v' (.error e)
  /-- The directory at the path, which is made if it is not there, has consistent
  files, and complete ones when nothing failed: that is, when no folder has one of
  the names to write. -/
  | there {made d d' outcome} (hmade : v.makeDirectory path = .ok made)
    (hdirectory : made.directory path = .ok d)
    (hbefore : ∀ d₀, v.directory path = .ok d₀ → d₀ = d)
    (hafter : (made.setDirectory path d').directory path = .ok d')
    (hconsistent : s.Consistent d d')
    (hcomplete : ∀ names, outcome = .ok names → names = s.fileNames ∧ s.Complete d')
    (hsucceeds : (∃ names, outcome = .ok names)
      ↔ ∀ name ∈ touched s.fileNames, d.get? name ≠ some .folder) :
    Lands s v path (made.setDirectory path d') outcome

theorem writeTo_of_directory {made : Volume} (hmade : v.makeDirectory path = .ok made)
    (hdirectory : made.directory path = .ok d) :
    s.writeTo v path = (made.setDirectory path (s.writeInto d).1,
      (s.writeInto d).2.mapError FileFault.error) := by
  rw [writeTo, hmade]
  simp only [hdirectory]

theorem lands_writeTo (hid : (s.peers.map Peer.id).Nodup) (v : Volume) (path : String) :
    s.Lands v path (s.writeTo v path).1 (s.writeTo v path).2 := by
  cases hmade : v.makeDirectory path with
  | error f =>
    have hnone : ∀ d, v.directory path ≠ .ok d := by
      intro d hd
      rw [makeDirectory_of_directory hd] at hmade
      cases hmade
    rw [writeTo, hmade]
    exact Lands.nowhere hnone hnone
  | ok made =>
    have hsame : ∀ d₀, v.directory path = .ok d₀ → made.directory path = .ok d₀ := by
      intro d₀ hd₀
      rw [makeDirectory_of_directory hd₀] at hmade
      cases hmade
      exact hd₀
    cases hdirectory : made.directory path with
    | error f =>
      have hnone : ∀ d, made.directory path ≠ .ok d := by
        intro d hd
        rw [hdirectory] at hd
        cases hd
      rw [writeTo, hmade]
      simp only [hdirectory]
      exact Lands.nowhere (fun d hd => hnone d (hsame d hd)) hnone
    | ok d =>
      have hconsistent : s.Consistent d (s.writeInto d).1 :=
        consistent_of_stops hid (stops_runSteps d s.steps)
      rw [writeTo_of_directory hmade hdirectory]
      refine Lands.there hmade hdirectory ?_ ?_ hconsistent ?_ ?_
      · intro d₀ hd₀
        exact Except.ok.inj ((hsame d₀ hd₀).symm.trans hdirectory)
      · exact directory_setDirectory hdirectory fun name => s.keepsFolders_steps d name
      · intro names hnames
        exact writeInto_eq_ok hid (Except.mapError_eq_ok_iff.mp hnames)
      · simp only [Except.mapError_eq_ok_iff]
        exact writeInto_isOk_iff hid d

/-- **A snapshot on disk is consistent**, wherever the work on it stops, and
complete when nothing fails. -/
theorem consistent_on_disk (hid : (s.peers.map Peer.id).Nodup) :
    (∀ d d', Stops s.steps d d' → s.Consistent d d')
      ∧ ∀ v path, s.Lands v path (s.writeTo v path).1 (s.writeTo v path).2 :=
  ⟨fun _ _ => consistent_of_stops hid, lands_writeTo hid⟩

/-- Two members of a cluster, the later one first. -/
def pair : List Peer :=
  [⟨⟨⟨List.replicate 15 0 ++ [2], rfl⟩⟩, .v6 ⟨List.replicate 15 0 ++ [1], rfl⟩, 6002, 9002⟩,
    ⟨Uuid.nil, .v4 ⟨[10, 0, 0, 1], rfl⟩, 6001, 9001⟩]

/-- The cluster with both of them, the earlier one first. -/
def couple : Snapshot where
  clusterId := Uuid.nil
  peers := pair.reverse
  reconciledAt := ⟨0, 0⟩

/-- A directory with an old file of the earlier member, an old descriptor, and a
folder in the way of the file of the later one. -/
def jammed : Directory :=
  Table.ofList [("00000000-0000-0000-0000-000000000000.peer", .file []),
    (temporary "00000000-0000-0000-0000-000000000002.peer", .folder),
    (couple.descriptorName, .file [])]

/-- The work stops at the folder: the file of the earlier member is new, and that of
the later one is not there. -/
theorem consistent_on_disk_couple :
    (couple.peers.map Peer.id).Nodup
      ∧ (couple.writeInto jammed).2 = .error .isADirectory
      ∧ couple.Consistent jammed (couple.writeInto jammed).1
      ∧ (∃ first second, couple.peerFiles = [first, second]
        ∧ Holds (couple.writeInto jammed).1 first
        ∧ (couple.writeInto jammed).1.get? second.1 = none)
      ∧ ∀ v path, couple.Lands v path (couple.writeTo v path).1 (couple.writeTo v path).2 := by
  have hid : (couple.peers.map Peer.id).Nodup := by decide
  obtain ⟨hstops, hlands⟩ := consistent_on_disk hid
  have hconsistent := hstops jammed (couple.writeInto jammed).1 (stops_runSteps ..)
  have hrun : (couple.writeInto jammed).2 = .error .isADirectory
      ∧ (couple.writeInto jammed).1.get? "00000000-0000-0000-0000-000000000000.peer"
        ≠ some (.file [])
      ∧ (couple.writeInto jammed).1.get? "00000000-0000-0000-0000-000000000002.peer" = none := by
    decide +kernel
  obtain ⟨hfails, hchanged, hmissing⟩ := hrun
  obtain ⟨first, second, hfiles, hfirst, hsecond⟩ : ∃ first second,
      couple.peerFiles = [first, second]
        ∧ first.1 = "00000000-0000-0000-0000-000000000000.peer"
        ∧ second.1 = "00000000-0000-0000-0000-000000000002.peer" :=
    ⟨_, _, rfl, by decide +kernel, by decide +kernel⟩
  refine ⟨hid, hfails, hconsistent, ⟨first, second, hfiles, ?_, hsecond ▸ hmissing⟩, hlands⟩
  -- a file that has changed is among those that are replaced
  obtain ⟨done, rest, hsplit, hnew, hold⟩ := hconsistent.peers
  rw [hfiles] at hsplit
  cases done with
  | nil =>
    obtain rfl : [first, second] = rest := hsplit
    have hkept := hold first List.mem_cons_self
    rw [hfirst] at hkept
    exact absurd hkept hchanged
  | cons file done =>
    obtain ⟨rfl, -⟩ := List.cons.inj hsplit
    exact hnew _ List.mem_cons_self

/-- A cluster of one member. -/
def lone : Snapshot where
  clusterId := Uuid.nil
  peers := [⟨Uuid.nil, .v4 (.zero 4), 6001, 9001⟩]
  reconciledAt := ⟨0, 0⟩

/-- A directory with the descriptor of the cluster, and a folder in the way of the
file of its member. -/
def obstructed : Directory :=
  Table.ofList [(lone.descriptorName, .file (Text.octetsOf lone.descriptor)),
    (temporary "00000000-0000-0000-0000-000000000000.peer", .folder)]

/-- **A descriptor may be there without the files of the peers**, if it was
there before. -/
theorem descriptor_before_peers :
    (lone.peers.map Peer.id).Nodup
      ∧ lone.writeInto obstructed = (obstructed, .error .isADirectory)
      ∧ Holds obstructed (lone.descriptorName, lone.descriptor)
      ∧ ¬ ∀ file ∈ lone.peerFiles, Holds obstructed file := by
  refine ⟨by decide, ?_, ?_, ?_⟩
  · decide +kernel
  · show obstructed.get? _ = _
    decide +kernel
  · show ¬ ∀ file ∈ lone.peerFiles, obstructed.get? _ = _
    decide +kernel

end Snapshot

end Rendezvous
