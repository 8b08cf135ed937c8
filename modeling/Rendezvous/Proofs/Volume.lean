/-
Rendezvous/Proofs/Volume.lean

Where paths lead.

A directory that is there is not made again (`makeDirectory_of_directory`), and
a directory that is put at a path is found there, as long as no folder gets
lost with it (`directory_setDirectory`).
-/
import Rendezvous.Proofs.Outcome
import Rendezvous.Proofs.Table
import Rendezvous.Volume

namespace Rendezvous

namespace Volume

open Except

variable {v v' : Volume} {place place' names names' : List String} {name path : String}
  {d d' : Directory}

/-! ### Following names -/

theorem follow_append (v : Volume) (place names names' : List String) :
    v.follow place (names ++ names')
      = (v.follow place names).bind fun place' => v.follow place' names' := by
  induction names generalizing place with
  | nil => rfl
  | cons name rest ih =>
    rw [List.cons_append, follow, follow]
    split
    · exact ih place
    split
    · exact ih place.dropLast
    split
    · rfl
    · rfl
    · exact ih (place ++ [name])

/-- Names that are all followed need not be made. -/
theorem makeFrom_of_follow (h : v.follow place names = .ok place') :
    v.makeFrom place names = .ok (v, place') := by
  induction names generalizing place with
  | nil =>
    cases h
    rfl
  | cons name rest ih =>
    rw [follow] at h
    rw [makeFrom]
    split at h
    · rename_i hstays
      rw [if_pos hstays]
      exact ih h
    · rename_i hstays
      rw [if_neg hstays]
      split at h
      · rename_i hback
        rw [if_pos hback]
        exact ih h
      · rename_i hback
        rw [if_neg hback]
        split at h
        · cases h
        · cases h
        · rename_i hfind
          rw [hfind]
          exact ih h

/-- Names that start with some that are all followed. -/
theorem exists_of_follow_append (h : v.follow place (names ++ names') = .ok place') :
    ∃ place₁, v.follow place names = .ok place₁ ∧ v.follow place₁ names' = .ok place' := by
  rw [follow_append] at h
  exact bind_eq_ok_iff.mp h

theorem directory_eq_ok_iff : v.directory path = .ok d ↔
    ∃ names place, pathNames path = .ok names ∧ v.follow [] names = .ok place
      ∧ v.directories.get? (pathText place) = some d := by
  rw [directory, bind_eq_ok_iff]
  constructor
  · rintro ⟨names, hnames, h⟩
    obtain ⟨place, hplace, h⟩ := bind_eq_ok_iff.mp h
    refine ⟨names, place, hnames, hplace, ?_⟩
    split at h
    · rename_i d₀ hget
      exact (Except.ok.inj h) ▸ hget
    · cases h
  · rintro ⟨names, place, hnames, hplace, hget⟩
    refine ⟨names, hnames, bind_eq_ok_iff.mpr ⟨place, hplace, ?_⟩⟩
    rw [hget]

/-- Names, cut before the last one that does not stay where it is. -/
theorem cut_last (names : List String) :
    let back := names.reverse
    names = ((back.dropWhile staysHere).drop 1).reverse ++ ((back.dropWhile staysHere).take 1
      ++ (back.takeWhile staysHere).reverse) := by
  have hone : ∀ l : List String, (l.take 1).reverse = l.take 1 := by
    rintro (_ | ⟨name, rest⟩) <;> rfl
  intro back
  rw [← List.append_assoc, ← hone, ← List.reverse_append, List.take_append_drop,
    ← List.reverse_append, List.takeWhile_append_dropWhile, List.reverse_reverse]

/-- **A directory that is there is not made again.** -/
theorem makeDirectory_of_directory (h : v.directory path = .ok d) :
    v.makeDirectory path = .ok v := by
  obtain ⟨names, place, hnames, hplace, -⟩ := directory_eq_ok_iff.mp h
  rw [makeDirectory, hnames]
  show (do
    let x ← v.makeFrom [] _
    let _ ← x.1.follow x.2 _
    .ok x.1) = _
  split
  · rw [cut_last names] at hplace
    obtain ⟨place₁, hway, hplace⟩ := exists_of_follow_append hplace
    obtain ⟨place₂, hlast, -⟩ := exists_of_follow_append hplace
    rw [makeFrom_of_follow hway]
    show (v.follow place₁ _).bind _ = _
    rw [hlast]
    rfl
  · rw [makeFrom_of_follow hplace]
    rfl

/-! ### Putting a directory in its place -/

theorem find_eq_ok_iff {e : Entry} : v.find place name = .ok e ↔ ¬ longestName < name.utf8ByteSize
    ∧ ∃ d, v.directories.get? (pathText place) = some d ∧ d.get? name = some e := by
  have hentry : v.entry? (place ++ [name])
      = (v.directories.get? (pathText place)).bind fun d => d.get? name := by
    unfold entry?
    rw [List.getLast?_concat, List.dropLast_concat]
  rw [find, hentry]
  split
  · rename_i hlong
    exact ⟨nofun, fun h => absurd hlong h.1⟩
  · rename_i hshort
    cases hd : v.directories.get? (pathText place) with
    | none => simp
    | some d => cases hname : d.get? name <;> simp [hname, Nat.not_lt.mp hshort]

/-- Names lead to the same place in a volume that has the same folders. -/
theorem follow_of_folders (hkeep : ∀ key d, v.directories.get? key = some d →
      ∃ d', v'.directories.get? key = some d'
        ∧ ∀ name, d.get? name = some .folder → d'.get? name = some .folder)
    (h : v.follow place names = .ok place') : v'.follow place names = .ok place' := by
  have hfind : ∀ {place name}, v.find place name = .ok .folder →
      v'.find place name = .ok .folder := by
    intro place name hfolder
    obtain ⟨hshort, d, hd, hname⟩ := find_eq_ok_iff.mp hfolder
    obtain ⟨d', hd', hsame⟩ := hkeep _ d hd
    exact find_eq_ok_iff.mpr ⟨hshort, d', hd', hsame name hname⟩
  induction names generalizing place with
  | nil => exact h
  | cons name rest ih =>
    rw [follow] at h ⊢
    split at h
    · rename_i hstays
      rw [if_pos hstays]
      exact ih h
    rename_i hstays
    rw [if_neg hstays]
    split at h
    · rename_i hback
      rw [if_pos hback]
      exact ih h
    rename_i hback
    rw [if_neg hback]
    split at h
    · cases h
    · cases h
    · rename_i hfolder
      rw [hfind hfolder]
      exact ih h

/-- **A directory that is put at a path is found there.** -/
theorem directory_setDirectory (h : v.directory path = .ok d)
    (hkeep : ∀ name, d.get? name = some .folder → d'.get? name = some .folder) :
    (v.setDirectory path d').directory path = .ok d' := by
  obtain ⟨names, place, hnames, hplace, hget⟩ := directory_eq_ok_iff.mp h
  have hset : v.setDirectory path d' = ⟨v.directories.insert (pathText place) d'⟩ := by
    simp only [setDirectory, hnames, Except.bind, hplace]
  rw [hset, directory_eq_ok_iff]
  refine ⟨names, place, hnames, follow_of_folders ?_ hplace, Table.get?_insert_self _ _ _⟩
  intro key d₀ hd₀
  show ∃ d₁, (v.directories.insert _ d').get? key = some d₁ ∧ _
  rw [Table.get?_insert]
  split
  · rename_i hkey
    rw [hkey, hget] at hd₀
    cases hd₀
    exact ⟨d', rfl, hkeep⟩
  · exact ⟨d₀, hd₀, fun _ h => h⟩

end Volume

end Rendezvous
