/-
Rendezvous/Proofs/Fields.lean

Lines and fields of any text.

A text that is cut at a mark falls into what its parts before and after the mark
fall into (`cutAt_append_mark`).  So the fields on both sides of a blank are the
fields of both parts (`fields_append_blank`): words that are put together with
spaces are found again (`fields_intercalate`), and it makes no difference to the
fields of a line whether a carriage return is dropped from its end.

What is looked for in the fields of lines is therefore the same in the lines of a
text and in the stretches between its line feeds, as long as nothing is looked for
in a blank line (`filterMap_lines`).  In this sense every list of lines is the lines
of some text (`filterMap_lines_intercalate`).
-/
import Rendezvous.Proofs.Lines
import Rendezvous.Proofs.Url

namespace Rendezvous.Text

variable {p : Char → Bool} {c : Char} {line s : String}

/-! ### Cutting at a mark -/

/-- A text falls into what stands before a mark and what stands after it. -/
theorem cutAt_append_mark (hc : p c) (v w : List Char) :
    cutAt p (v ++ c :: w) = cutAt p v ++ cutAt p w := by
  induction v with
  | nil =>
    show cutAt p (c :: w) = [] :: cutAt p w
    rw [cutAt, if_pos hc]
  | cons d v ih =>
    rw [List.cons_append, cutAt, cutAt, ih]
    split
    · rfl
    · -- the first stretch before the mark gets one character longer
      rcases hcut : cutAt p v with _ | ⟨u, us⟩
      · exact absurd hcut cutAt_ne_nil
      · rfl

/-! ### Fields -/

/-- The fields on both sides of a blank. -/
theorem fields_append_blank (hc : isBlank c) (v w : List Char) :
    fields (String.ofList (v ++ c :: w))
      = fields (String.ofList v) ++ fields (String.ofList w) := by
  simp only [fields, String.toList_ofList]
  rw [cutAt_append_mark hc, List.filter_append, List.map_append]

/-- Fields are words. -/
theorem isWord_of_mem_fields {w : String} (h : w ∈ fields s) : IsWord w := by
  obtain ⟨l, hl, rfl⟩ := List.mem_map.mp h
  obtain ⟨hcut, hne⟩ := List.mem_filter.mp hl
  rw [IsWord, String.toList_ofList]
  refine ⟨?_, fun c hc => eq_false_of_mem_cutAt hcut hc⟩
  rintro rfl
  cases hne

theorem fields_word {w : String} (h : IsWord w) : fields w = [w] := by
  rw [fields, cutAt_eq_self h.2, List.filter_cons_of_pos (by simp [h.1])]
  show [String.ofList w.toList] = [w]
  rw [String.ofList_toList]

/-- **Words that are put together are found again.** -/
theorem fields_intercalate {ws : List String} (h : ∀ w ∈ ws, IsWord w) :
    fields (" ".intercalate ws) = ws := by
  induction ws with
  | nil => rfl
  | cons w ws ih =>
    have hw : fields w = [w] := fields_word (h w List.mem_cons_self)
    have hws := ih fun w' hw' => h w' (List.mem_cons_of_mem _ hw')
    rcases ws with _ | ⟨w', ws⟩
    · rw [String.intercalate_singleton, hw]
    · have hspace : w ++ " " ++ " ".intercalate (w' :: ws)
          = String.ofList (w.toList ++ ' ' :: (" ".intercalate (w' :: ws)).toList) := by
        apply String.toList_inj.mp
        simp
      rw [String.intercalate_cons_cons, hspace, fields_append_blank (by decide),
        String.ofList_toList, String.ofList_toList, hw, hws]
      rfl

/-! ### Lines -/

/-- A carriage return at the end belongs to no field. -/
theorem fields_dropEnding (w : List Char) :
    fields (String.ofList (dropEnding '\r' w)) = fields (String.ofList w) := by
  rw [dropEnding]
  split
  · rename_i hlast
    have hw : w = w.dropLast ++ '\r' :: [] := (List.dropLast_append_getLast? _ hlast).symm
    have hnothing : fields (String.ofList []) = [] := rfl
    rw [hw, fields_append_blank (by decide), hnothing, List.append_nil, ← hw]
  · rfl

/-- No line has a line feed in it. -/
theorem notMem_of_mem_lines (h : line ∈ lines s) : '\n' ∉ line.toList := by
  obtain ⟨l, hl, rfl⟩ := List.mem_map.mp h
  rw [String.toList_ofList]
  have hcut : ∀ w ∈ cutAt (· == '\n') s.toList, '\n' ∉ w := fun w hw hmem =>
    absurd (eq_false_of_mem_cutAt hw hmem) (by decide)
  revert hl hcut
  generalize cutAt (· == '\n') s.toList = ws
  intro hl hcut
  fun_induction linesOf ws with
  | case1 => cases hl
  | case2 => cases hl
  | case3 w hw =>
    rw [List.mem_singleton.mp hl]
    exact hcut w List.mem_cons_self
  | case4 w ws hshort ih =>
    rcases List.mem_cons.mp hl with rfl | hl
    · intro hmem
      rw [dropEnding] at hmem
      split at hmem
      · exact hcut w List.mem_cons_self (List.dropLast_subset _ hmem)
      · exact hcut w List.mem_cons_self hmem
    · exact ih hl fun w' hw' => hcut w' (List.mem_cons_of_mem _ hw')

/-- A text without line feeds is its only line. -/
theorem lines_eq_self (h : '\n' ∉ line.toList) (hne : line ≠ "") : lines line = [line] := by
  have hline : ∀ c ∈ line.toList, (c == '\n') = false := fun c hc =>
    beq_eq_false_iff_ne.mpr fun heq => h (heq ▸ hc)
  have hsome : ¬ line.toList.isEmpty := by simp [hne]
  rw [lines, cutAt_eq_self hline, linesOf, if_neg hsome, List.map_singleton, String.ofList_toList]

/-! ### Looking through lines -/

variable {β : Type} {f : List String → Option β}

/-- What is looked for in fields, but not where there are none, is found in the
stretches between line feeds as it is in lines. -/
theorem filterMap_lines (hf : f [] = none) (s : String) :
    (lines s).filterMap (fun l => f (fields l))
      = (cutAt (· == '\n') s.toList).filterMap fun w => f (fields (String.ofList w)) := by
  rw [lines, List.filterMap_map]
  generalize cutAt (· == '\n') s.toList = ws
  fun_induction linesOf ws with
  | case1 => rfl
  | case2 w hw =>
    have hblank : f (fields (String.ofList [])) = none := hf
    rw [List.isEmpty_iff.mp hw, List.filterMap_cons, hblank]
    rfl
  | case3 w hw => rfl
  | case4 w ws hshort ih =>
    have hcut : f (fields (String.ofList (dropEnding '\r' w))) = f (fields (String.ofList w)) := by
      rw [fields_dropEnding]
    rw [List.filterMap_cons, List.filterMap_cons, Function.comp_apply, hcut, ih]

/-- **Any lines are the lines of a text**, for what is looked for in their fields. -/
theorem filterMap_lines_intercalate (hf : f [] = none) {ls : List String}
    (h : ∀ l ∈ ls, '\n' ∉ l.toList) :
    (lines ("\n".intercalate ls)).filterMap (fun l => f (fields l))
      = ls.filterMap fun l => f (fields l) := by
  rw [filterMap_lines hf]
  induction ls with
  | nil => exact List.filterMap_cons_none hf
  | cons l ls ih =>
    have hl : ∀ c ∈ l.toList, (c == '\n') = false := fun c hc =>
      beq_eq_false_iff_ne.mpr fun heq => h l List.mem_cons_self (heq ▸ hc)
    have hrest := ih fun l' hl' => h l' (List.mem_cons_of_mem _ hl')
    rcases ls with _ | ⟨l', ls⟩
    · rw [String.intercalate_singleton, cutAt_eq_self hl, List.filterMap_cons, List.filterMap_cons,
        String.ofList_toList]
      rfl
    · have hfeed : (l ++ "\n" ++ "\n".intercalate (l' :: ls)).toList
          = l.toList ++ '\n' :: ("\n".intercalate (l' :: ls)).toList := by
        simp
      rw [String.intercalate_cons_cons, hfeed, cutAt_append hl rfl, List.filterMap_cons,
        List.filterMap_cons, hrest, String.ofList_toList]

end Rendezvous.Text
