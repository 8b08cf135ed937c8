/-
Rendezvous/Proofs/Files.lean

Writing files that may stop at any time.

Work on a directory may stop before any of its operations, or with one that
fails; the latter changes nothing but the temporary file that it writes
(`Stops`).  A file that is written under another name and then moved is there
with all of its contents or not at all (`stops_fileSteps`), and of several files
that are written in this way some are replaced, from the first on, and the others
are as they were (`stops_filesSteps`).  What is neither one of the files nor one of
their temporary files is never touched.  All of the work is done if no folder has
one of these names (`runs_filesSteps`).
-/
import Rendezvous.Proofs.Outcome
import Rendezvous.Proofs.Table
import Rendezvous.Snapshot.Files

namespace Rendezvous

/-! ### One operation -/

namespace Directory

variable {d d' : Directory} {name source target : String} {contents more : List UInt8}

theorem create_eq_ok_iff :
    d.create name = .ok d' ↔ d.get? name ≠ some .folder ∧ d' = d.insert name (.file []) := by
  rw [create]
  split
  · rename_i hfolder
    exact ⟨nofun, fun h => absurd hfolder h.1⟩
  · rename_i hfolder
    rw [Except.ok.injEq, eq_comm]
    exact ⟨fun h => ⟨hfolder, h⟩, And.right⟩

theorem append_eq_ok_iff (hname : d.get? name = some (.file contents)) :
    d.append name more = .ok d' ↔ d' = d.insert name (.file (contents ++ more)) := by
  rw [append, hname, Except.ok.injEq, eq_comm]

/-- A file does not replace a folder. -/
theorem rename_eq_ok_iff (hsource : d.get? source = some (.file contents)) :
    d.rename source target = .ok d' ↔ d.get? target ≠ some .folder
      ∧ d' = (d.erase source).insert target (.file contents) := by
  rw [rename, hsource]
  rcases htarget : d.get? target with _ | _ | _
  · simp [eq_comm]
  · simp [eq_comm]
  · simp

end Directory

/-- Directories that are alike except under some names. -/
def SameExcept (names : List String) (d d' : Directory) : Prop :=
  ∀ name, name ∉ names → d'.get? name = d.get? name

namespace SameExcept

variable {names names' : List String} {d d₁ d' : Directory} {name : String}

theorem refl (names : List String) (d : Directory) : SameExcept names d d := fun _ _ => rfl

theorem trans (h : SameExcept names d d₁) (h' : SameExcept names d₁ d') :
    SameExcept names d d' := fun name hname => (h' name hname).trans (h name hname)

theorem mono (h : SameExcept names d d') (hsub : names ⊆ names') : SameExcept names' d d' :=
  fun name hname => h name fun hmem => hname (hsub hmem)

theorem insert (h : name ∈ names) (e : Entry) : SameExcept names d (d.insert name e) :=
  fun name' hname' => Table.get?_insert_ne d e fun heq : name' = name => hname' (heq ▸ h)

theorem erase (h : name ∈ names) : SameExcept names d (d.erase name) := by
  intro name' hname'
  have hne : name' ≠ name := fun heq => hname' (heq ▸ h)
  rw [Table.get?_erase, if_neg hne]

end SameExcept

/-! ### Stopping -/

namespace FileStep

/-- The file that an operation works on. -/
def scratch? : FileStep → Option String
  | create name => some name
  | append name _ => some name
  | move source _ => some source
  | sync => none

/-- What an operation that fails may do: change the file that it works on. -/
def Spares (step : FileStep) (d d' : Directory) : Prop := SameExcept step.scratch?.toList d d'

end FileStep

/-- Work on a directory stops and leaves another one behind. -/
inductive Stops : List FileStep → Directory → Directory → Prop
  /-- It stops before the next operation, or there is none. -/
  | here {steps d} : Stops steps d d
  /-- The next operation fails. -/
  | failing {step rest d d'} (h : FileStep.Spares step d d') : Stops (step :: rest) d d'
  /-- The next operation succeeds, and the work goes on. -/
  | after {step rest d d₁ d'} (h : step.apply d = .ok d₁) (hrest : Stops rest d₁ d') :
    Stops (step :: rest) d d'

variable {steps steps' : List FileStep} {step : FileStep} {d d₁ d' : Directory}

/-- A run is work that stops. -/
theorem stops_runSteps (d : Directory) (steps : List FileStep) :
    Stops steps d (runSteps d steps).1 := by
  induction steps generalizing d with
  | nil => exact Stops.here
  | cons step rest ih =>
    rw [runSteps]
    split
    · rename_i d₁ happly
      exact Stops.after happly (ih d₁)
    · exact Stops.here

theorem runSteps_cons (h : step.apply d = .ok d₁) :
    runSteps d (step :: steps) = runSteps d₁ steps := by
  rw [runSteps, h]

theorem runSteps_cons_eq_ok (h : runSteps d (step :: steps) = (d', .ok ())) :
    ∃ d₁, step.apply d = .ok d₁ ∧ runSteps d₁ steps = (d', .ok ()) := by
  rw [runSteps] at h
  split at h
  · rename_i d₁ happly
    exact ⟨d₁, happly, h⟩
  · cases h

theorem runSteps_append (d : Directory) (steps steps' : List FileStep) :
    runSteps d (steps ++ steps') = match runSteps d steps with
      | (d₁, .ok ()) => runSteps d₁ steps'
      | (d₁, .error f) => (d₁, .error f) := by
  induction steps generalizing d with
  | nil => rfl
  | cons step rest ih =>
    rw [List.cons_append, runSteps, runSteps]
    cases step.apply d with
    | ok d₁ => exact ih d₁
    | error f => rfl

theorem runSteps_append_eq_ok (h : runSteps d (steps ++ steps') = (d', .ok ())) :
    ∃ d₁, runSteps d steps = (d₁, .ok ()) ∧ runSteps d₁ steps' = (d', .ok ()) := by
  rw [runSteps_append] at h
  split at h
  · rename_i d₁ hfirst
    exact ⟨d₁, hfirst, h⟩
  · cases h

/-- Work in two parts stops in the first, or in the second when the first is
done. -/
theorem stops_append (h : Stops (steps ++ steps') d d') :
    Stops steps d d' ∨ ∃ d₁, runSteps d steps = (d₁, .ok ()) ∧ Stops steps' d₁ d' := by
  induction steps generalizing d with
  | nil => exact Or.inr ⟨d, rfl, h⟩
  | cons step rest ih =>
    cases h with
    | here => exact Or.inl Stops.here
    | failing h => exact Or.inl (Stops.failing h)
    | after happly hrest =>
      rcases ih hrest with hfirst | ⟨d₂, hdone, hsecond⟩
      · exact Or.inl (Stops.after happly hfirst)
      · exact Or.inr ⟨d₂, (runSteps_cons happly).trans hdone, hsecond⟩

/-! Making a directory last changes nothing in it. -/

theorem stops_filter_sync (h : Stops steps d d') : Stops (steps.filter (· ≠ .sync)) d d' := by
  induction h with
  | here => exact Stops.here
  | @failing step rest d d' h =>
    by_cases hsync : step = .sync
    · subst hsync
      have heq : d' = d := Table.ext_get? fun name => h name List.not_mem_nil
      subst heq
      exact Stops.here
    · rw [List.filter_cons_of_pos (by simpa using hsync)]
      exact Stops.failing h
  | @after step rest d d₁ d' happly _ ih =>
    by_cases hsync : step = .sync
    · subst hsync
      cases happly
      exact ih
    · rw [List.filter_cons_of_pos (by simpa using hsync)]
      exact Stops.after happly ih

theorem runSteps_filter_sync (d : Directory) (steps : List FileStep) :
    runSteps d (steps.filter (· ≠ .sync)) = runSteps d steps := by
  induction steps generalizing d with
  | nil => rfl
  | cons step rest ih =>
    by_cases hsync : step = .sync
    · subst hsync
      exact ih d
    · rw [List.filter_cons_of_pos (by simpa using hsync), runSteps, runSteps]
      cases step.apply d with
      | ok d₁ => exact ih d₁
      | error f => rfl

/-! ### Folders -/

/-- Operations that never move or replace a folder. -/
def KeepsFolders (steps : List FileStep) : Prop :=
  ∀ (d : Directory) (name : String), d.get? name = some .folder →
    (runSteps d steps).1.get? name = some .folder

theorem keepsFolders_append (h : KeepsFolders steps) (h' : KeepsFolders steps') :
    KeepsFolders (steps ++ steps') := by
  intro d name hname
  have hfirst := h d name hname
  rw [runSteps_append]
  split
  · rename_i d₁ heq
    rw [heq] at hfirst
    exact h' d₁ name hfirst
  · rename_i d₁ f heq
    rw [heq] at hfirst
    exact hfirst

theorem keepsFolders_flatMap {α : Type} {f : α → List FileStep} {l : List α}
    (h : ∀ a ∈ l, KeepsFolders (f a)) : KeepsFolders (l.flatMap f) := by
  induction l with
  | nil => exact fun _ _ hname => hname
  | cons a rest ih =>
    rw [List.flatMap_cons]
    exact keepsFolders_append (h a List.mem_cons_self)
      (ih fun b hb => h b (List.mem_cons_of_mem _ hb))

/-! ### One file -/

namespace Snapshot

/-- A directory holds a file, given by its name and its text. -/
def Holds (d : Directory) (file : String × String) : Prop :=
  d.get? file.1 = some (.file (Text.octetsOf file.2))

variable {file : String × String} {name : String}

theorem Holds.congr (h : Holds d file) (hsame : d'.get? file.1 = d.get? file.1) :
    Holds d' file := hsame.trans h

/-- What is written into a new file is all that it has. -/
theorem created {octets : List UInt8} (hcreate : d.create name = .ok d₁)
    (happend : d₁.append name octets = .ok d') :
    d'.get? name = some (.file octets) ∧ SameExcept [name] d d' := by
  have hname : name ∈ [name] := List.mem_singleton_self name
  obtain ⟨-, rfl⟩ := Directory.create_eq_ok_iff.mp hcreate
  obtain rfl := (Directory.append_eq_ok_iff (Table.get?_insert_self _ _ _)).mp happend
  exact ⟨Table.get?_insert_self _ _ _,
    (SameExcept.insert hname _).trans (SameExcept.insert hname _)⟩

/-- A file that is moved is then under its new name only. -/
theorem moved {source target : String} {contents : List UInt8}
    (hsource : d.get? source = some (.file contents)) (h : d.rename source target = .ok d')
    (hne : target ≠ source) :
    d'.get? target = some (.file contents) ∧ d'.get? source = none
      ∧ SameExcept [target, source] d d' := by
  obtain ⟨-, rfl⟩ := (Directory.rename_eq_ok_iff hsource).mp h
  refine ⟨Table.get?_insert_self _ _ _, ?_, ?_⟩
  · rw [Table.get?_insert_ne _ _ hne.symm, Table.get?_erase, if_pos rfl]
  · exact (SameExcept.erase (by simp)).trans (SameExcept.insert (by simp) _)

/-- A file that is written and then moved. -/
theorem replaced (hne : file.1 ≠ temporary file.1) {d₂ : Directory}
    (hcreate : d.create (temporary file.1) = .ok d₁)
    (happend : d₁.append (temporary file.1) (Text.octetsOf file.2) = .ok d₂)
    (hmove : d₂.rename (temporary file.1) file.1 = .ok d') :
    Holds d' file ∧ d'.get? (temporary file.1) = none
      ∧ SameExcept [file.1, temporary file.1] d d' := by
  obtain ⟨hwritten, hwrite⟩ := created hcreate happend
  obtain ⟨htarget, hsource, hrename⟩ := moved hwritten hmove hne
  exact ⟨htarget, hsource, (hwrite.mono (by simp)).trans hrename⟩

/-- **A file is replaced as a whole or not at all**, wherever the work on it
stops. -/
theorem stops_fileSteps (hne : file.1 ≠ temporary file.1)
    (h : Stops (fileSteps file.1 file.2) d d') :
    SameExcept [temporary file.1] d d'
      ∨ Holds d' file ∧ SameExcept [file.1, temporary file.1] d d' := by
  have hmem : temporary file.1 ∈ [temporary file.1] := List.mem_singleton_self _
  rcases h with _ | hfail | ⟨hcreate, hrest⟩
  · exact Or.inl (SameExcept.refl _ d)
  · exact Or.inl hfail
  have hcreated := (Directory.create_eq_ok_iff.mp hcreate).2
  rcases hrest with _ | hfail | ⟨happend, hrest⟩
  · exact Or.inl (hcreated ▸ SameExcept.insert hmem _)
  · exact Or.inl ((hcreated ▸ SameExcept.insert hmem _).trans hfail)
  obtain ⟨-, hwrite⟩ := created hcreate happend
  rcases hrest with _ | hfail | ⟨hmove, hrest⟩
  · exact Or.inl hwrite
  · exact Or.inl (hwrite.trans hfail)
  -- the file is moved, and there is nothing left to do
  cases hrest
  obtain ⟨hholds, -, hsame⟩ := replaced hne hcreate happend hmove
  exact Or.inr ⟨hholds, hsame⟩

theorem completes_fileSteps (hne : file.1 ≠ temporary file.1)
    (h : runSteps d (fileSteps file.1 file.2) = (d', .ok ())) :
    Holds d' file ∧ d'.get? (temporary file.1) = none
      ∧ SameExcept [file.1, temporary file.1] d d' := by
  obtain ⟨d₁, hcreate, h⟩ := runSteps_cons_eq_ok h
  obtain ⟨d₂, happend, h⟩ := runSteps_cons_eq_ok h
  obtain ⟨d₃, hmove, h⟩ := runSteps_cons_eq_ok h
  cases h
  exact replaced hne hcreate happend hmove

/-- The work on a file is done unless a folder is in the way. -/
theorem runs_fileSteps (hne : file.1 ≠ temporary file.1)
    (htemporary : d.get? (temporary file.1) ≠ some .folder)
    (htarget : d.get? file.1 ≠ some .folder) :
    ∃ d', runSteps d (fileSteps file.1 file.2) = (d', .ok ()) := by
  obtain ⟨d₁, hcreate⟩ : ∃ d₁, (FileStep.create (temporary file.1)).apply d = .ok d₁ :=
    ⟨_, Directory.create_eq_ok_iff.mpr ⟨htemporary, rfl⟩⟩
  have hempty : d₁.get? (temporary file.1) = some (.file []) := by
    rw [(Directory.create_eq_ok_iff.mp hcreate).2, Table.get?_insert_self]
  obtain ⟨d₂, happend⟩ :
      ∃ d₂, (FileStep.append (temporary file.1) (Text.octetsOf file.2)).apply d₁ = .ok d₂ :=
    ⟨_, (Directory.append_eq_ok_iff hempty).mpr rfl⟩
  obtain ⟨hwritten, hsame⟩ := created hcreate happend
  rw [← hsame file.1 fun hmem => hne (List.mem_singleton.mp hmem)] at htarget
  obtain ⟨d', hmove⟩ : ∃ d', (FileStep.move (temporary file.1) file.1).apply d₂ = .ok d' :=
    ⟨_, (Directory.rename_eq_ok_iff hwritten).mpr ⟨htarget, rfl⟩⟩
  refine ⟨d', ?_⟩
  rw [fileSteps, runSteps_cons hcreate, runSteps_cons happend, runSteps_cons hmove, runSteps]

/-- A folder is neither emptied nor moved nor replaced. -/
theorem keepsFolders_fileSteps (name contents : String) :
    KeepsFolders (fileSteps name contents) := by
  intro d folder hfolder
  rw [fileSteps, runSteps]
  split
  swap
  · exact hfolder
  rename_i d₁ hcreate
  obtain ⟨hfile, rfl⟩ := Directory.create_eq_ok_iff.mp hcreate
  have hne : folder ≠ temporary name := fun heq => hfile (heq ▸ hfolder)
  have hfolder₁ := (Table.get?_insert_ne d (.file []) hne).trans hfolder
  rw [runSteps]
  split
  swap
  · exact hfolder₁
  rename_i d₂ happend
  obtain ⟨hwritten, hsame⟩ := created hcreate happend
  have hfolder₂ : d₂.get? folder = some .folder :=
    (hsame folder fun hmem => hne (List.mem_singleton.mp hmem)).trans hfolder
  rw [runSteps]
  split
  swap
  · exact hfolder₂
  rename_i d₃ hmove
  obtain ⟨hfree, rfl⟩ := (Directory.rename_eq_ok_iff hwritten).mp hmove
  have htarget : folder ≠ name := fun heq => hfree (heq ▸ hfolder₂)
  show (Table.insert _ name _).get? folder = some Entry.folder
  rw [Table.get?_insert_ne _ _ htarget, Table.get?_erase, if_neg hne, hfolder₂]

/-! ### Several files -/

/-- The names of some files and of their temporary files. -/
def touched (names : List String) : List String := names ++ names.map temporary

/-- The operations that write some files. -/
def filesSteps (files : List (String × String)) : List FileStep :=
  files.flatMap fun file => fileSteps file.1 file.2

/-- Files with pairwise different names, none of which is that of a temporary
file. -/
structure Separate (names : List String) : Prop where
  nodup : names.Nodup
  apart : ∀ name ∈ names, name ∉ names.map temporary

/-- Of some files the first ones hold their contents, and the others are as
they were. -/
def FirstReplaced (files : List (String × String)) (d d' : Directory) : Prop :=
  ∃ done rest, files = done ++ rest ∧ (∀ file ∈ done, Holds d' file)
    ∧ ∀ file ∈ rest, d'.get? file.1 = d.get? file.1

variable {names names' : List String} {files : List (String × String)}

theorem temporary_injective : Function.Injective temporary := by
  intro name name' h
  rw [temporary, temporary, ← String.toList_inj] at h
  exact String.toList_inj.mp (by simpa using h)

theorem touched_subset (h : names ⊆ names') : touched names ⊆ touched names' := by
  intro name hname
  rcases List.mem_append.mp hname with hmem | hmem
  · exact List.mem_append_left _ (h hmem)
  · exact List.mem_append_right _ (List.map_subset _ h hmem)

namespace Separate

theorem tail (h : Separate (name :: names)) : Separate names :=
  ⟨h.nodup.of_cons, fun name' hname' hmem =>
    h.apart name' (List.mem_cons_of_mem _ hname') (List.mem_cons_of_mem _ hmem)⟩

theorem ne_temporary (h : Separate names) {name' : String} (hname : name ∈ names)
    (hname' : name' ∈ names) : name ≠ temporary name' :=
  fun heq => h.apart name hname (heq ▸ List.mem_map_of_mem hname')

/-- Neither of the first file nor of its temporary file is touched with the
others. -/
theorem head_notMem (h : Separate (name :: names)) :
    name ∉ touched names ∧ temporary name ∉ touched names := by
  have hnew : name ∉ names := (List.nodup_cons.mp h.nodup).1
  constructor
  · intro hmem
    rcases List.mem_append.mp hmem with hmem | hmem
    · exact hnew hmem
    · exact h.apart name List.mem_cons_self (List.mem_cons_of_mem _ hmem)
  · intro hmem
    rcases List.mem_append.mp hmem with hmem | hmem
    · exact h.ne_temporary (List.mem_cons_of_mem _ hmem) List.mem_cons_self rfl
    · obtain ⟨name', hname', heq⟩ := List.mem_map.mp hmem
      exact hnew (temporary_injective heq ▸ hname')

/-- Nor does the work on the first file touch what is touched with the others. -/
theorem notMem_pair (h : Separate (name :: names)) {name' : String}
    (hname' : name' ∈ touched names) : name' ∉ [name, temporary name] := by
  obtain ⟨hname, htemporary⟩ := h.head_notMem
  intro hmem
  rcases List.mem_pair.mp hmem with rfl | rfl
  · exact hname hname'
  · exact htemporary hname'

end Separate

namespace FirstReplaced

/-- Files may all be as they were. -/
theorem of_same (h : ∀ file ∈ files, d'.get? file.1 = d.get? file.1) : FirstReplaced files d d' :=
  ⟨[], files, rfl, nofun, h⟩

/-- The first file is replaced and keeps its contents, and then the first of the
others are. -/
theorem cons (hholds : Holds d' file)
    (hbefore : ∀ file' ∈ files, d₁.get? file'.1 = d.get? file'.1)
    (h : FirstReplaced files d₁ d') : FirstReplaced (file :: files) d d' := by
  obtain ⟨done, rest, rfl, hnew, hold⟩ := h
  refine ⟨file :: done, rest, rfl, ?_, ?_⟩
  · intro file' hfile'
    rcases List.mem_cons.mp hfile' with rfl | hfile'
    · exact hholds
    · exact hnew file' hfile'
  · intro file' hfile'
    exact (hold file' hfile').trans (hbefore file' (List.mem_append_right done hfile'))

end FirstReplaced

/-- What the work on the first file touches is touched. -/
theorem pair_subset_touched (name : String) (names : List String) :
    [name, temporary name] ⊆ touched (name :: names) := by
  intro name' hname'
  rcases List.mem_pair.mp hname' with rfl | rfl
  · exact List.mem_append_left _ List.mem_cons_self
  · exact List.mem_append_right _ List.mem_cons_self

/-- **Files are replaced one after the other**, wherever the work on them
stops, and nothing else is touched. -/
theorem stops_filesSteps (hsep : Separate (files.map Prod.fst))
    (h : Stops (filesSteps files) d d') :
    FirstReplaced files d d' ∧ SameExcept (touched (files.map Prod.fst)) d d' := by
  induction files generalizing d with
  | nil =>
    cases h
    exact ⟨FirstReplaced.of_same nofun, SameExcept.refl _ _⟩
  | cons file files ih =>
    have hne := hsep.ne_temporary List.mem_cons_self List.mem_cons_self
    have hpair := pair_subset_touched file.1 (files.map Prod.fst)
    have hothers : ∀ file' ∈ files, file'.1 ∉ [file.1, temporary file.1] := fun file' hfile' =>
      hsep.notMem_pair (List.mem_append_left _ (List.mem_map_of_mem hfile'))
    rcases stops_append h with hfirst | ⟨d₁, hdone, hrest⟩
    · rcases stops_fileSteps hne hfirst with hsame | ⟨hholds, hsame⟩
      · -- the first file is as it was
        refine ⟨FirstReplaced.of_same fun file' hfile' => hsame file'.1 fun hmem => ?_,
          hsame.mono (List.subset_of_cons_subset hpair)⟩
        exact hsep.ne_temporary (List.mem_map_of_mem hfile') List.mem_cons_self
          (List.mem_singleton.mp hmem)
      · have hbefore := fun file' hfile' => hsame (Prod.fst file') (hothers file' hfile')
        exact ⟨FirstReplaced.cons hholds hbefore (FirstReplaced.of_same fun _ _ => rfl),
          hsame.mono hpair⟩
    · -- the first file is replaced, and the work goes on with the others
      obtain ⟨hholds, -, hsame⟩ := completes_fileSteps hne hdone
      obtain ⟨hfirst, hafter⟩ := ih hsep.tail hrest
      have hbefore := fun file' hfile' => hsame (Prod.fst file') (hothers file' hfile')
      exact ⟨FirstReplaced.cons (hholds.congr (hafter _ hsep.head_notMem.1)) hbefore hfirst,
        (hsame.mono hpair).trans (hafter.mono (touched_subset (List.subset_cons_self _ _)))⟩

/-- When nothing fails, all files are replaced and no temporary file is left. -/
theorem completes_filesSteps (hsep : Separate (files.map Prod.fst))
    (h : runSteps d (filesSteps files) = (d', .ok ())) :
    (∀ file ∈ files, Holds d' file ∧ d'.get? (temporary file.1) = none)
      ∧ SameExcept (touched (files.map Prod.fst)) d d' := by
  induction files generalizing d with
  | nil =>
    cases h
    exact ⟨nofun, SameExcept.refl _ _⟩
  | cons file files ih =>
    have hne := hsep.ne_temporary List.mem_cons_self List.mem_cons_self
    obtain ⟨d₁, hdone, hrest⟩ := runSteps_append_eq_ok h
    obtain ⟨hholds, hclean, hsame⟩ := completes_fileSteps hne hdone
    obtain ⟨hothers, hafter⟩ := ih hsep.tail hrest
    refine ⟨?_, (hsame.mono (pair_subset_touched _ _)).trans
      (hafter.mono (touched_subset (List.subset_cons_self _ _)))⟩
    intro file' hfile'
    rcases List.mem_cons.mp hfile' with rfl | hfile'
    · obtain ⟨hname, htemporary⟩ := hsep.head_notMem
      exact ⟨hholds.congr (hafter _ hname), (hafter _ htemporary).trans hclean⟩
    · exact hothers file' hfile'

/-- All the work is done unless a folder is in the way. -/
theorem runs_filesSteps (hsep : Separate (files.map Prod.fst))
    (hfree : ∀ name ∈ touched (files.map Prod.fst), d.get? name ≠ some .folder) :
    ∃ d', runSteps d (filesSteps files) = (d', .ok ()) := by
  induction files generalizing d with
  | nil => exact ⟨d, rfl⟩
  | cons file files ih =>
    have hne := hsep.ne_temporary List.mem_cons_self List.mem_cons_self
    have hpair := pair_subset_touched file.1 (files.map Prod.fst)
    obtain ⟨d₁, hdone⟩ := runs_fileSteps hne (hfree _ (hpair (by simp)))
      (hfree _ (hpair (by simp)))
    obtain ⟨-, -, hsame⟩ := completes_fileSteps hne hdone
    have hrest : ∀ name ∈ touched (files.map Prod.fst), d₁.get? name ≠ some .folder := by
      intro name hname
      rw [hsame name (hsep.notMem_pair hname)]
      exact hfree name (touched_subset (List.subset_cons_self _ _) hname)
    obtain ⟨d', hafter⟩ := ih hsep.tail hrest
    refine ⟨d', ?_⟩
    rw [filesSteps, List.flatMap_cons, runSteps_append, hdone]
    exact hafter

end Snapshot

end Rendezvous
