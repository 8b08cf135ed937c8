/-
Rendezvous/Proofs/NodeLines.lean

Lines of node files and of proxy files.

A line that is not blank, read as a node file, has one entry or is at fault
(`ofText_line`), and only its first four fields count.  The line of a proxy has one
field more.  Its entry is found by putting the first four together again and reading
these as a node file, which comes to the same, fault or entry, as reading the whole
line (`ofText_rejoined`): words put together with spaces are found again, and there is
no line feed between them.  So the two readers agree on every line
(`find_agrees`).
-/
import Rendezvous.Proofs.Fields
import Rendezvous.Proofs.Outcome

namespace Rendezvous

open Text

variable {line line' contents name : String}

/-! ### Node files -/

namespace NodeEntry

/-- A line that is not blank has one entry, or is at fault. -/
theorem ofText_line (h : '\n' ∉ line.toList) (hfields : fields line ≠ []) :
    ofText line = (ofLine line).map fun e => [e] := by
  have hne : line ≠ "" := by
    rintro rfl
    exact hfields rfl
  rw [ofText, lines_eq_self h hne, List.filter_cons_of_pos (by simp [hfields]), List.filter_nil,
    List.mapM_cons, List.mapM_nil]
  rcases ofLine line with e | e
  · rfl
  · rfl

/-- Only the first four fields of a line count, if there are four. -/
theorem ofLine_congr (h : (fields line).take 4 = (fields line').take 4)
    (hline : 4 ≤ (fields line).length) (hline' : 4 ≤ (fields line').length) :
    ofLine line = ofLine line' := by
  rw [ofLine, ofLine]
  rcases hl : fields line with _ | ⟨n, _ | ⟨a, _ | ⟨g, _ | ⟨r, more⟩⟩⟩⟩
  case cons.cons.cons.cons =>
    rcases hl' : fields line' with _ | ⟨n', _ | ⟨a', _ | ⟨g', _ | ⟨r', more'⟩⟩⟩⟩
    case cons.cons.cons.cons =>
      rw [hl, hl'] at h
      cases h
      rfl
    all_goals exact absurd (hl' ▸ hline') (by simp)
  all_goals exact absurd (hl ▸ hline) (by simp)

/-- There is no line feed between words. -/
theorem notMem_rejoined {ws : List String} (h : ∀ w ∈ ws, IsWord w) :
    '\n' ∉ (" ".intercalate ws).toList := by
  induction ws with
  | nil => exact List.not_mem_nil
  | cons w ws ih =>
    have hw : '\n' ∉ w.toList := fun hmem => absurd ((h w List.mem_cons_self).2 _ hmem) (by decide)
    have hws := ih fun w' hw' => h w' (List.mem_cons_of_mem _ hw')
    rcases ws with _ | ⟨w', ws⟩
    · rw [String.intercalate_singleton]
      exact hw
    · rw [String.intercalate_cons_cons, String.toList_append, String.toList_append,
        List.mem_append, List.mem_append]
      rintro ((hmem | hmem) | hmem)
      · exact hw hmem
      · exact absurd hmem (by decide)
      · exact hws hmem

/-- **The first four fields of a line, put together again, read as the whole line
does**, whether that is an entry or a fault. -/
theorem ofText_rejoined (h : '\n' ∉ line.toList) (hline : 4 ≤ (fields line).length) :
    ofText (" ".intercalate ((fields line).take 4)) = ofText line := by
  have hwords : ∀ w ∈ (fields line).take 4, IsWord w := fun w hw =>
    isWord_of_mem_fields (List.mem_of_mem_take hw)
  have hfields := fields_intercalate hwords
  have hlength : (fields (" ".intercalate ((fields line).take 4))).length = 4 := by
    rw [hfields, List.length_take, Nat.min_eq_left hline]
  have hsome : ∀ s : String, 4 ≤ (fields s).length → fields s ≠ [] := by
    intro s hs hnil
    rw [hnil] at hs
    exact absurd hs (by decide)
  rw [ofText_line (notMem_rejoined hwords) (hsome _ hlength.ge), ofText_line h (hsome _ hline),
    ofLine_congr _ hlength.ge hline]
  rw [hfields, List.take_take]
  rfl

/-- Two entries never come of one line, nor does none. -/
theorem eq_singleton_of_ofText {nodes : List NodeEntry} (h : '\n' ∉ line.toList)
    (hfields : fields line ≠ []) (hread : ofText line = .ok nodes) : ∃ node, nodes = [node] := by
  rw [ofText_line h hfields] at hread
  obtain ⟨node, -, rfl⟩ := Except.map_eq_ok_iff.mp hread
  exact ⟨node, rfl⟩

end NodeEntry

/-! ### Proxy files -/

namespace ProxyEntry

/-- The first line of a proxy file that starts with a name. -/
def FirstNamed (contents name line : String) : Prop :=
  ∃ before after, lines contents = before ++ line :: after
    ∧ (∀ l ∈ before, (fields l).head? ≠ some name) ∧ (fields line).head? = some name

theorem FirstNamed.mem (h : FirstNamed contents name line) : line ∈ lines contents := by
  obtain ⟨before, after, hlines, -⟩ := h
  rw [hlines]
  exact List.mem_append_right _ List.mem_cons_self

theorem find_of_firstNamed (h : FirstNamed contents name line) :
    find contents name = ofLine line := by
  obtain ⟨before, after, hlines, hbefore, hname⟩ := h
  have hfind : (lines contents).find? (fun l => (fields l).head? = some name) = some line := by
    rw [List.find?_eq_some_iff_append]
    refine ⟨decide_eq_true hname, before, after, hlines, fun l hl => ?_⟩
    rw [Bool.not_eq_true', decide_eq_false_iff_not]
    exact hbefore l hl
  rw [find, hfind]

theorem find_of_not_named (h : ∀ l ∈ lines contents, (fields l).head? ≠ some name) :
    find contents name
      = .error (.configuration ("Agent name " ++ name ++ " not found in proxy config")) := by
  have hfind : (lines contents).find? (fun l => (fields l).head? = some name) = none := by
    rw [List.find?_eq_none]
    intro l hl hname
    exact h l hl (of_decide_eq_true hname)
  rw [find, hfind]

theorem firstNamed_or_not (contents name : String) : (∃ line, FirstNamed contents name line)
    ∨ ∀ l ∈ lines contents, (fields l).head? ≠ some name := by
  rcases hfind : (lines contents).find? (fun l => (fields l).head? = some name) with _ | line
  · refine Or.inr fun l hl hname => ?_
    exact List.find?_eq_none.mp hfind l hl (decide_eq_true hname)
  · obtain ⟨hname, before, after, hlines, hbefore⟩ := List.find?_eq_some_iff_append.mp hfind
    refine Or.inl ⟨line, before, after, hlines, fun l hl => ?_, of_decide_eq_true hname⟩
    have hl' := hbefore l hl
    rwa [Bool.not_eq_true', decide_eq_false_iff_not] at hl'

/-- A line by itself is found in itself. -/
theorem find_line (h : '\n' ∉ line.toList) (hname : (fields line).head? = some name) :
    find line name = ofLine line := by
  have hne : line ≠ "" := by
    rintro rfl
    cases hname
  exact find_of_firstNamed ⟨[], [], lines_eq_self h hne, nofun, hname⟩

/-- A line is read as its node and its port; that no entry is left of its first four
fields never happens. -/
theorem ofLine_of_fields {http : String} (h : '\n' ∉ line.toList)
    (hhttp : (fields line)[4]? = some http) : ofLine line
      = NodeEntry.ofLine line >>= fun node =>
        match port? http with
        | some port => .ok ⟨node, port⟩
        | none => .error (.configuration ("HTTP port " ++ http ++ " is out of range")) := by
  have hlength : 4 < (fields line).length := (List.getElem?_eq_some_iff.mp hhttp).1
  have hne : fields line ≠ [] := List.ne_nil_of_mem (List.mem_of_getElem? hhttp)
  have hdrop : (fields line).drop 4 = http :: (fields line).drop 5 := by
    rw [List.drop_eq_getElem_cons hlength, ← (List.getElem?_eq_some_iff.mp hhttp).2]
  simp only [ofLine, hdrop]
  rw [NodeEntry.ofText_rejoined h (by omega), NodeEntry.ofText_line h hne]
  rcases NodeEntry.ofLine line with e | node
  · rfl
  · rfl

theorem ofLine_of_short (h : (fields line)[4]? = none) : ofLine line
    = .error (.configuration ("Malformed proxy config line " ++ quoted line)) := by
  have hdrop : (fields line).drop 4 = [] := List.drop_of_length_le (List.getElem?_eq_none_iff.mp h)
  simp only [ofLine, hdrop]

/-- **A line of a proxy is read exactly if** it has a fifth field that is a port and is
read, as a node file, as one entry. -/
theorem ofLine_eq_ok_iff {e : ProxyEntry} (h : '\n' ∉ line.toList) :
    ofLine line = .ok e ↔ ∃ http, (fields line)[4]? = some http ∧ port? http = some e.httpPort
      ∧ NodeEntry.ofText line = .ok [e.node] := by
  rcases hhttp : (fields line)[4]? with _ | http
  · rw [ofLine_of_short hhttp]
    exact ⟨nofun, nofun⟩
  · have hne : fields line ≠ [] := List.ne_nil_of_mem (List.mem_of_getElem? hhttp)
    rw [ofLine_of_fields h hhttp, NodeEntry.ofText_line h hne, Except.bind_eq_ok_iff]
    constructor
    · rintro ⟨node, hnode, hok⟩
      split at hok
      · rename_i port hport
        cases hok
        exact ⟨http, rfl, hport, by rw [hnode]; rfl⟩
      · cases hok
    · rintro ⟨http', hhttp', hport, hnode⟩
      cases hhttp'
      obtain ⟨node, hread, heq⟩ := Except.map_eq_ok_iff.mp hnode
      cases heq
      exact ⟨e.node, hread, by rw [hport]⟩

/-- A fault of the node of a line is the fault of the line. -/
theorem ofLine_eq_error {http : String} {f : Error} (h : '\n' ∉ line.toList)
    (hhttp : (fields line)[4]? = some http) (hnode : NodeEntry.ofText line = .error f) :
    ofLine line = .error f := by
  have hne : fields line ≠ [] := List.ne_nil_of_mem (List.mem_of_getElem? hhttp)
  rw [NodeEntry.ofText_line h hne] at hnode
  rw [ofLine_of_fields h hhttp]
  rcases hread : NodeEntry.ofLine line with f' | node
  · rw [hread] at hnode
    cases hnode
    rfl
  · rw [hread] at hnode
    cases hnode

/-- **The two readers of node lines agree.**  Only the first line that starts with
the name counts, and without one the name is not found.  An entry is found exactly if
that line has a fifth field that is a port and reads as a node file; the node is the
one entry it reads as.  A fault found there is the fault of the whole.  On every line
of four fields or more the first four, put together again, read as the whole line
does, and never as no entry or as two. -/
theorem find_agrees (contents name : String) :
    (∀ line, FirstNamed contents name line → find contents name = find line name)
    ∧ ((∀ l ∈ lines contents, (fields l).head? ≠ some name) → find contents name
        = .error (.configuration ("Agent name " ++ name ++ " not found in proxy config")))
    ∧ (∀ e, find contents name = .ok e ↔ ∃ line http, FirstNamed contents name line
        ∧ (fields line)[4]? = some http ∧ port? http = some e.httpPort
        ∧ NodeEntry.ofText line = .ok [e.node])
    ∧ (∀ line http f, FirstNamed contents name line → (fields line)[4]? = some http →
        NodeEntry.ofText line = .error f → find contents name = .error f)
    ∧ ∀ line ∈ lines contents, 4 ≤ (fields line).length →
        NodeEntry.ofText (" ".intercalate ((fields line).take 4)) = NodeEntry.ofText line
        ∧ ∀ nodes, NodeEntry.ofText line = .ok nodes → ∃ node, nodes = [node] := by
  refine ⟨?_, find_of_not_named, ?_, ?_, ?_⟩
  · intro line hline
    have hname : (fields line).head? = some name := by
      obtain ⟨-, -, -, -, hname⟩ := hline
      exact hname
    rw [find_of_firstNamed hline, find_line (notMem_of_mem_lines hline.mem) hname]
  · intro e
    constructor
    · intro hfind
      rcases firstNamed_or_not contents name with ⟨line, hline⟩ | hnone
      · rw [find_of_firstNamed hline] at hfind
        obtain ⟨http, hread⟩ := (ofLine_eq_ok_iff (notMem_of_mem_lines hline.mem)).mp hfind
        exact ⟨line, http, hline, hread⟩
      · rw [find_of_not_named hnone] at hfind
        cases hfind
    · rintro ⟨line, http, hline, hread⟩
      rw [find_of_firstNamed hline]
      exact (ofLine_eq_ok_iff (notMem_of_mem_lines hline.mem)).mpr ⟨http, hread⟩
  · intro line http f hline hhttp hnode
    rw [find_of_firstNamed hline]
    exact ofLine_eq_error (notMem_of_mem_lines hline.mem) hhttp hnode
  · intro line hline hlength
    have hfeed := notMem_of_mem_lines hline
    have hne : fields line ≠ [] := List.ne_nil_of_length_pos (by omega)
    exact ⟨NodeEntry.ofText_rejoined hfeed hlength,
      fun nodes => NodeEntry.eq_singleton_of_ofText hfeed hne⟩

/-- A line with odd blanks and a field too many. -/
def oddLine : String := "proxy-1\t127.0.0.1\u00a08946 8373\t\t8080 spare"

/-- A line whose first port is out of range. -/
def steepLine : String := "proxy-2 127.0.0.1 70000 8373 8080"

/-- A proxy file with both, and with a name that stands there twice. -/
def proxies : String := "# agents\r\n" ++ oddLine ++ "\r\nproxy-1 nowhere\n" ++ steepLine

/-- The first line of a name is read, the second is not looked at, and a name that is
not there is not found. -/
theorem find_agrees_proxies :
    find proxies "proxy-1" = find oddLine "proxy-1"
    ∧ find proxies "proxy-1" = .ok ⟨⟨"proxy-1", .v4 ⟨[127, 0, 0, 1], rfl⟩, 8946, 8373⟩, 8080⟩
    ∧ find proxies "proxy-2" = .error (.configuration "Agent port 70000 is out of range")
    ∧ find proxies "proxy-3"
      = .error (.configuration "Agent name proxy-3 not found in proxy config")
    ∧ NodeEntry.ofText "proxy-1 127.0.0.1 8946 8373" = NodeEntry.ofText oddLine := by
  have hlines : lines proxies = ["# agents", oddLine, "proxy-1 nowhere", steepLine] := by decide
  have hodd : FirstNamed proxies "proxy-1" oddLine :=
    ⟨["# agents"], ["proxy-1 nowhere", steepLine], hlines, by decide, by decide⟩
  have hsteep : FirstNamed proxies "proxy-2" steepLine :=
    ⟨["# agents", oddLine, "proxy-1 nowhere"], [], hlines, by decide, by decide⟩
  have hnone : ∀ l ∈ lines proxies, (fields l).head? ≠ some "proxy-3" := by
    rw [hlines]
    decide
  obtain ⟨hone, -, hread, -, hjoined⟩ := find_agrees proxies "proxy-1"
  obtain ⟨-, -, -, hfault, -⟩ := find_agrees proxies "proxy-2"
  refine ⟨hone oddLine hodd, ?_, ?_, (find_agrees proxies "proxy-3").2.1 hnone, ?_⟩
  · exact (hread _).mpr ⟨oddLine, "8080", hodd, by decide, by decide, by decide⟩
  · exact hfault steepLine "8080" _ hsteep (by decide) (by decide)
  · exact (hjoined oddLine hodd.mem (by decide)).1

end ProxyEntry

end Rendezvous
