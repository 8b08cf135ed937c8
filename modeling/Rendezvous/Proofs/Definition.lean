/-
Rendezvous/Proofs/Definition.lean

Which texts define a peer.

A line of a peer file counts if it has two fields or more and the first is one of
three keywords; it says that its last field is the value of that keyword.  All else
is passed over, so a text is read as the list of what its lines say
(`ofLines_eq_foldlM`), in order:

    a statement whose value does not parse is the fault of the whole (`foldlM_take_error`)
    without one, each keyword has the value of its last statement (`foldl_said`)

and a peer comes of it if every keyword has a value (`ofLines_eq_ok_iff`).  Lines that
do not count can be put in, taken out and moved about (`ofLines_exact`).
-/
import Mathlib.Data.List.Induction
import Rendezvous.Proofs.Fields
import Rendezvous.Proofs.Outcome

namespace Rendezvous.Peer

open Text

/-! ### Statements -/

/-- What a line of a peer file can be about. -/
inductive Keyword where
  | ip
  | service
  | client
  deriving DecidableEq

namespace Keyword

/-- The first field of a line about it. -/
def text : Keyword → String
  | ip => "IPADDR"
  | service => "PORT"
  | client => "CLIENT_PORT"

/-- The keyword that a field is. -/
def ofText? (key : String) : Option Keyword := [ip, service, client].find? fun k => k.text = key

theorem ofText?_text (k : Keyword) : ofText? k.text = some k := by
  cases k with
  | ip => rfl
  | service => rfl
  | client => rfl

theorem ofText?_eq_some_iff {key : String} {k : Keyword} : ofText? key = some k ↔ key = k.text := by
  constructor
  · intro h
    have hk := List.find?_some h
    exact (of_decide_eq_true hk).symm
  · rintro rfl
    exact k.ofText?_text

end Keyword

/-- A keyword and the text of its value. -/
structure Statement where
  keyword : Keyword
  value : String
  deriving DecidableEq

namespace Statement

/-- What fields say, if they count: there are two or more and the first is a keyword;
the last is its value. -/
def ofFields? : List String → Option Statement
  | key :: value :: more =>
    (Keyword.ofText? key).map fun k => ⟨k, (value :: more).getLast?.getD value⟩
  | _ => none

theorem ofFields?_eq_some_iff {l : List String} {s : Statement} : ofFields? l = some s ↔
    2 ≤ l.length ∧ l.head? = some s.keyword.text ∧ l.getLast? = some s.value := by
  rcases l with _ | ⟨key, _ | ⟨value, more⟩⟩
  · exact ⟨nofun, nofun⟩
  · exact ⟨nofun, fun h => absurd h.1 (by simp)⟩
  · obtain ⟨k, v⟩ := s
    have hlast : (key :: value :: more).getLast? = some ((value :: more).getLast?.getD value) := by
      rw [List.getLast?_cons_cons, List.getLast?_cons]
      rfl
    rw [ofFields?, Option.map_eq_some_iff, hlast, List.head?_cons, Option.some.injEq,
      Option.some.injEq]
    constructor
    · rintro ⟨k', hk', heq⟩
      cases heq
      exact ⟨by simp, Keyword.ofText?_eq_some_iff.mp hk', rfl⟩
    · rintro ⟨-, hkey, hvalue⟩
      exact ⟨k, Keyword.ofText?_eq_some_iff.mpr hkey, by rw [hvalue]⟩

/-- What is wrong with the value. -/
def fault? : Statement → Option Error
  | ⟨.ip, v⟩ => if (IpAddr.parse? v).isSome then none else some .badIp
  | ⟨.service, v⟩ =>
    if (port? v).isSome then none
    else some (.configuration ("Port " ++ v ++ " is out of range"))
  | ⟨.client, v⟩ =>
    if (port? v).isSome then none
    else some (.configuration ("Client port " ++ v ++ " is out of range"))

theorem fault?_eq_none_iff {s : Statement} : s.fault? = none ↔
    match s.keyword with
    | .ip => (IpAddr.parse? s.value).isSome
    | .service | .client => (port? s.value).isSome := by
  obtain ⟨k, v⟩ := s
  cases k with
  | ip =>
    rw [fault?]
    split
    · rename_i hv
      exact ⟨fun _ => hv, fun _ => rfl⟩
    · rename_i hv
      exact ⟨nofun, fun h => absurd h hv⟩
  | service | client =>
    rw [fault?]
    split
    · rename_i hv
      exact ⟨fun _ => hv, fun _ => rfl⟩
    · rename_i hv
      exact ⟨nofun, fun h => absurd h hv⟩

end Statement

/-- What a line says, if it counts. -/
def statement? (line : String) : Option Statement := Statement.ofFields? (Text.fields line)

/-- Whether a line counts. -/
def counts (line : String) : Bool := (statement? line).isSome

/-- What the lines of a text say. -/
def statements (contents : String) : List Statement := (lines contents).filterMap statement?

/-- The value in the last statement about a keyword. -/
def lastValue? (l : List Statement) (k : Keyword) : Option String :=
  (l.filter fun s => s.keyword = k).getLast?.map Statement.value

variable {l before after : List Statement} {s : Statement} {k : Keyword} {f : Facts} {e : Error}
  {id : Uuid} {p : Peer} {contents : String}

theorem lastValue?_concat : lastValue? (l ++ [s]) k
    = if s.keyword = k then some s.value else lastValue? l k := by
  rw [lastValue?, List.filter_append]
  by_cases hk : s.keyword = k
  · rw [if_pos hk, List.filter_cons_of_pos (by simpa using hk), List.filter_nil,
      List.getLast?_concat]
    rfl
  · rw [if_neg hk, List.filter_cons_of_neg (by simpa using hk), List.filter_nil, List.append_nil]
    rfl

theorem exists_of_lastValue? {v : String} (h : lastValue? l k = some v) :
    ∃ s ∈ l, s.keyword = k ∧ s.value = v := by
  obtain ⟨s, hs, rfl⟩ := Option.map_eq_some_iff.mp h
  obtain ⟨hmem, hk⟩ := List.mem_filter.mp (List.mem_of_getLast? hs)
  exact ⟨s, hmem, of_decide_eq_true hk, rfl⟩

theorem isSome_lastValue? (hs : s ∈ l) (hk : s.keyword = k) : (lastValue? l k).isSome := by
  have hmem : s ∈ l.filter fun s => s.keyword = k := List.mem_filter.mpr ⟨hs, decide_eq_true hk⟩
  rw [lastValue?, Option.isSome_map, List.getLast?_isSome]
  exact List.ne_nil_of_mem hmem

/-- Where all values of a keyword parse, its last one does if there is any. -/
theorem isSome_bind_lastValue? {α : Type} {parse : String → Option α}
    (h : ∀ s ∈ l, s.keyword = k → (parse s.value).isSome) :
    ((lastValue? l k).bind parse).isSome ↔ ∃ s ∈ l, s.keyword = k := by
  constructor
  · intro hsome
    obtain ⟨v, hv, -⟩ := Option.bind_eq_some_iff.mp (Option.some_get hsome).symm
    obtain ⟨s, hs, hk, -⟩ := exists_of_lastValue? hv
    exact ⟨s, hs, hk⟩
  · rintro ⟨s, hs, hk⟩
    obtain ⟨v, hv⟩ := Option.isSome_iff_exists.mp (isSome_lastValue? hs hk)
    obtain ⟨s', hs', hk', rfl⟩ := exists_of_lastValue? hv
    rw [hv]
    exact h s' hs' hk'

/-! ### One statement after the other -/

/-- Take in a statement. -/
def Facts.take (f : Facts) (s : Statement) : Except Error Facts := f.set s.keyword.text s.value

/-- What is known after a statement that parses. -/
def Facts.said (f : Facts) : Statement → Facts
  | ⟨.ip, v⟩ => { f with ip := IpAddr.parse? v }
  | ⟨.service, v⟩ => { f with servicePort := port? v }
  | ⟨.client, v⟩ => { f with clientPort := port? v }

theorem Facts.take_eq (f : Facts) (s : Statement) :
    f.take s = s.fault?.elim (.ok (f.said s)) .error := by
  obtain ⟨k, v⟩ := s
  cases k with
  | ip =>
    show f.set "IPADDR" v = _
    rw [set, if_pos rfl, Statement.fault?, said]
    rcases IpAddr.parse? v with _ | ip
    · rfl
    · rfl
  | service =>
    show f.set "PORT" v = _
    rw [set, if_neg (by decide), if_pos rfl, Statement.fault?, said]
    rcases port? v with _ | port
    · rfl
    · rfl
  | client =>
    show f.set "CLIENT_PORT" v = _
    rw [set, if_neg (by decide), if_neg (by decide), if_pos rfl, Statement.fault?, said]
    rcases port? v with _ | port
    · rfl
    · rfl

/-- A line that does not count changes nothing. -/
theorem Facts.line_eq (f : Facts) (l : String) : f.line l = (statement? l).elim (.ok f) f.take := by
  rw [line, statement?]
  rcases Text.fields l with _ | ⟨key, _ | ⟨value, more⟩⟩
  · rfl
  · rfl
  · rw [Statement.ofFields?]
    rcases hkey : Keyword.ofText? key with _ | k
    · -- the first field is none of the keywords
      have hne : ∀ k : Keyword, key ≠ k.text := by
        rintro k rfl
        rw [k.ofText?_text] at hkey
        cases hkey
      have hip : key ≠ "IPADDR" := hne .ip
      have hservice : key ≠ "PORT" := hne .service
      have hclient : key ≠ "CLIENT_PORT" := hne .client
      show f.set key _ = .ok f
      rw [set, if_neg hip, if_neg hservice, if_neg hclient]
    · rw [Keyword.ofText?_eq_some_iff.mp hkey]
      rfl

/-- **A text is read as what its lines say.** -/
theorem ofLines_eq_foldlM (id : Uuid) (contents : String) :
    ofLines id contents = (statements contents).foldlM Facts.take {} >>= Facts.peer id := by
  have hlines : (lines contents).foldlM Facts.line {}
      = (statements contents).foldlM Facts.take {} := by
    rw [statements, List.foldlM_filterMap]
    congr 1
    funext f line
    rw [f.line_eq]
    cases statement? line with
    | none => rfl
    | some s => rfl
  rw [ofLines, hlines]

theorem foldlM_take (h : ∀ s ∈ l, s.fault? = none) : l.foldlM Facts.take f
    = .ok (l.foldl Facts.said f) := by
  induction l generalizing f with
  | nil => rfl
  | cons s l ih =>
    rw [List.foldlM_cons, f.take_eq, h s List.mem_cons_self]
    exact ih fun s' hs' => h s' (List.mem_cons_of_mem _ hs')

/-- The first statement that does not parse is the fault of the whole. -/
theorem foldlM_take_error (h : ∀ s ∈ before, s.fault? = none) (hs : s.fault? = some e) :
    (before ++ s :: after).foldlM Facts.take f = .error e := by
  rw [List.foldlM_append, foldlM_take h]
  show (s :: after).foldlM Facts.take _ = _
  rw [List.foldlM_cons, Facts.take_eq, hs]
  rfl

theorem exists_first_fault (h : ¬ ∀ s ∈ l, s.fault? = none) : ∃ before s after e,
    l = before ++ s :: after ∧ (∀ s ∈ before, s.fault? = none) ∧ s.fault? = some e := by
  induction l with
  | nil => exact absurd nofun h
  | cons s l ih =>
    rcases hs : s.fault? with _ | e
    · have hl : ¬ ∀ s ∈ l, s.fault? = none := fun hall => h (List.forall_mem_cons.mpr ⟨hs, hall⟩)
      obtain ⟨before, s', after, e, rfl, hbefore, hs'⟩ := ih hl
      exact ⟨s :: before, s', after, e, rfl, List.forall_mem_cons.mpr ⟨hs, hbefore⟩, hs'⟩
    · exact ⟨[], s, l, e, rfl, nofun, hs⟩

/-- **Each keyword has the value of its last statement.** -/
theorem foldl_said (l : List Statement) : l.foldl Facts.said {}
    = ⟨(lastValue? l .ip).bind IpAddr.parse?, (lastValue? l .service).bind port?,
      (lastValue? l .client).bind port?⟩ := by
  induction l using List.reverseRecOn with
  | nil => rfl
  | append_singleton l s ih =>
    rw [List.foldl_append, ih, lastValue?_concat, lastValue?_concat, lastValue?_concat]
    obtain ⟨k, v⟩ := s
    cases k with
    | ip => rfl
    | service => rfl
    | client => rfl

/-! ### The peer -/

theorem Facts.peer_eq_ok_iff : f.peer id = .ok p ↔
    p.id = id ∧ f.ip = some p.ip ∧ f.servicePort = some p.servicePort
      ∧ f.clientPort = some p.clientPort := by
  obtain ⟨pid, pip, pservice, pclient⟩ := p
  rcases f with ⟨_ | ip, _ | service, _ | client⟩
  case some.some.some =>
    constructor
    · intro h
      cases h
      exact ⟨rfl, rfl, rfl, rfl⟩
    · rintro ⟨rfl, hip, hservice, hclient⟩
      cases hip
      cases hservice
      cases hclient
      rfl
  all_goals exact ⟨nofun, nofun⟩

/-- Whether a value of a keyword is known. -/
def Facts.knows (f : Facts) : Keyword → Bool
  | .ip => f.ip.isSome
  | .service => f.servicePort.isSome
  | .client => f.clientPort.isSome

theorem Facts.exists_peer_iff : (∃ p, f.peer id = .ok p) ↔ ∀ k, f.knows k := by
  constructor
  · rintro ⟨p, hp⟩ k
    obtain ⟨-, hip, hservice, hclient⟩ := peer_eq_ok_iff.mp hp
    cases k with
    | ip => exact Option.isSome_of_eq_some hip
    | service => exact Option.isSome_of_eq_some hservice
    | client => exact Option.isSome_of_eq_some hclient
  · intro h
    obtain ⟨ip, hip⟩ := Option.isSome_iff_exists.mp (h .ip)
    obtain ⟨service, hservice⟩ := Option.isSome_iff_exists.mp (h .service)
    obtain ⟨client, hclient⟩ := Option.isSome_iff_exists.mp (h .client)
    exact ⟨⟨id, ip, service, client⟩, peer_eq_ok_iff.mpr ⟨rfl, hip, hservice, hclient⟩⟩

theorem Facts.peer_eq_error (h : ¬ ∀ k, f.knows k) : f.peer id = .error (.configuration
    ("Peer " ++ id.text ++ " is missing IPADDR, PORT or CLIENT_PORT")) := by
  rcases f with ⟨_ | ip, _ | service, _ | client⟩
  case some.some.some =>
    refine absurd (fun k => ?_) h
    cases k with
    | ip | service | client => rfl
  all_goals rfl

/-- Where all statements parse, a value is known if there is a statement about it. -/
theorem knows_foldl_said (hall : ∀ s ∈ l, s.fault? = none) :
    (l.foldl Facts.said {}).knows k ↔ ∃ s ∈ l, s.keyword = k := by
  rw [foldl_said]
  cases k with
  | ip | service | client =>
    refine isSome_bind_lastValue? fun s hs hk => ?_
    have hparse := Statement.fault?_eq_none_iff.mp (hall s hs)
    rw [hk] at hparse
    exact hparse

theorem ofLines_of_parses (hall : ∀ s ∈ statements contents, s.fault? = none) :
    ofLines id contents = ((statements contents).foldl Facts.said {}).peer id := by
  rw [ofLines_eq_foldlM, foldlM_take hall]
  rfl

/-- The first statement that does not parse is the fault, whatever comes after it. -/
theorem ofLines_of_fault (hl : statements contents = before ++ s :: after)
    (hbefore : ∀ s ∈ before, s.fault? = none) (hs : s.fault? = some e) :
    ofLines id contents = .error e := by
  rw [ofLines_eq_foldlM, hl, foldlM_take_error hbefore hs]
  rfl

theorem exists_fault_of_not_parses (id : Uuid)
    (h : ¬ ∀ s ∈ statements contents, s.fault? = none) : ∃ e, ofLines id contents = .error e := by
  obtain ⟨before, s, after, e, hl, hbefore, hs⟩ := exists_first_fault h
  exact ⟨e, ofLines_of_fault hl hbefore hs⟩

/-- **A text defines a peer exactly if** all it says parses, and the last values of the
keywords are those of the peer. -/
theorem ofLines_eq_ok_iff : ofLines id contents = .ok p ↔
    (∀ s ∈ statements contents, s.fault? = none) ∧ p.id = id
      ∧ (lastValue? (statements contents) .ip).bind IpAddr.parse? = some p.ip
      ∧ (lastValue? (statements contents) .service).bind port? = some p.servicePort
      ∧ (lastValue? (statements contents) .client).bind port? = some p.clientPort := by
  by_cases hall : ∀ s ∈ statements contents, s.fault? = none
  · rw [ofLines_of_parses hall, Facts.peer_eq_ok_iff, foldl_said]
    exact ⟨fun h => ⟨hall, h⟩, fun h => h.2⟩
  · obtain ⟨e, he⟩ := exists_fault_of_not_parses id hall
    rw [he]
    exact ⟨nofun, fun h => absurd h.1 hall⟩

/-- All that is said parses, and something is said about every keyword. -/
structure Complete (l : List Statement) : Prop where
  parses : ∀ s ∈ l, s.fault? = none
  covers : ∀ k, ∃ s ∈ l, s.keyword = k

theorem exists_ofLines_iff : (∃ p, ofLines id contents = .ok p) ↔ Complete (statements contents) := by
  by_cases hall : ∀ s ∈ statements contents, s.fault? = none
  · rw [ofLines_of_parses hall, Facts.exists_peer_iff]
    simp only [knows_foldl_said hall]
    exact ⟨fun h => ⟨hall, h⟩, fun h => h.covers⟩
  · obtain ⟨e, he⟩ := exists_fault_of_not_parses id hall
    rw [he]
    exact ⟨nofun, fun h => absurd h.parses hall⟩

/-- If all that is said parses, something is missing or there is a peer. -/
theorem ofLines_of_missing (hall : ∀ s ∈ statements contents, s.fault? = none)
    (hmissing : ¬ Complete (statements contents)) : ofLines id contents = .error (.configuration
      ("Peer " ++ id.text ++ " is missing IPADDR, PORT or CLIENT_PORT")) := by
  rw [ofLines_of_parses hall]
  refine Facts.peer_eq_error fun hknows => hmissing ⟨hall, fun k => ?_⟩
  exact (knows_foldl_said hall).mp (hknows k)

/-! ### Lines that do not count -/

theorem filterMap_counts (ls : List String) :
    (ls.filter counts).filterMap statement? = ls.filterMap statement? := by
  rw [List.filterMap_filter]
  congr 1
  funext line
  rw [counts]
  cases statement? line with
  | none => rfl
  | some s => rfl

/-- **What a list of lines says when it is a text.** -/
theorem statements_intercalate {ls : List String} (h : ∀ l ∈ ls, '\n' ∉ l.toList) :
    statements ("\n".intercalate ls) = ls.filterMap statement? :=
  filterMap_lines_intercalate rfl h

theorem ofLines_congr {contents' : String} (h : statements contents' = statements contents) :
    ofLines id contents' = ofLines id contents := by
  rw [ofLines_eq_foldlM, ofLines_eq_foldlM, h]

/-- **The grammar of peer files.**  A line counts if it has two fields or more and the
first is a keyword; it gives its last field as the value.  A text defines a peer
exactly if all these values parse and every keyword has one; then it is the peer of
the last values.  Otherwise the fault is that of the first value that does not parse,
whatever comes after it, or else that something is missing.  Texts with the same lines
that count are read in the same way, wherever other lines stand. -/
theorem ofLines_exact (id : Uuid) (contents : String) :
    (∀ line s, statement? line = some s ↔ 2 ≤ (Text.fields line).length
      ∧ (Text.fields line).head? = some s.keyword.text
      ∧ (Text.fields line).getLast? = some s.value)
    ∧ ((∃ p, ofLines id contents = .ok p) ↔ (∀ s ∈ statements contents, s.fault? = none)
      ∧ ∀ k, ∃ s ∈ statements contents, s.keyword = k)
    ∧ (∀ p, ofLines id contents = .ok p ↔ (∀ s ∈ statements contents, s.fault? = none)
      ∧ p.id = id
      ∧ (lastValue? (statements contents) .ip).bind IpAddr.parse? = some p.ip
      ∧ (lastValue? (statements contents) .service).bind port? = some p.servicePort
      ∧ (lastValue? (statements contents) .client).bind port? = some p.clientPort)
    ∧ (∀ before s after e, statements contents = before ++ s :: after →
        (∀ s' ∈ before, s'.fault? = none) → s.fault? = some e → ofLines id contents = .error e)
    ∧ ((∀ s ∈ statements contents, s.fault? = none) →
        ¬ (∀ k, ∃ s ∈ statements contents, s.keyword = k) →
        ofLines id contents = .error (.configuration
          ("Peer " ++ id.text ++ " is missing IPADDR, PORT or CLIENT_PORT")))
    ∧ (∀ contents', (lines contents').filter counts = (lines contents).filter counts →
        ofLines id contents' = ofLines id contents)
    ∧ ∀ ls ls' : List String, (∀ l ∈ ls ++ ls', '\n' ∉ l.toList) →
        ls'.filter counts = ls.filter counts →
        ofLines id ("\n".intercalate ls') = ofLines id ("\n".intercalate ls) := by
  refine ⟨fun line s => Statement.ofFields?_eq_some_iff, ?_, fun p => ofLines_eq_ok_iff,
    fun before s after e hl hbefore hs => ofLines_of_fault hl hbefore hs, ?_, ?_, ?_⟩
  · rw [exists_ofLines_iff]
    exact ⟨fun h => ⟨h.parses, h.covers⟩, fun h => ⟨h.1, h.2⟩⟩
  · intro hall hmissing
    exact ofLines_of_missing hall fun h => hmissing h.covers
  · intro contents' hsame
    refine ofLines_congr ?_
    rw [statements, statements, ← filterMap_counts, hsame, filterMap_counts]
  · intro ls ls' hfeed hsame
    refine ofLines_congr ?_
    rw [statements_intercalate fun l hl => hfeed l (List.mem_append_right _ hl),
      statements_intercalate fun l hl => hfeed l (List.mem_append_left _ hl),
      ← filterMap_counts, hsame, filterMap_counts]

/-- Lines with a keyword said twice, extra fields, a lone keyword and unknown ones. -/
def sheet : List String :=
  ["RAFT 1", "IPADDR\t10.0.0.9", "PORT 6000", "", "PORT at last 6001", "CLIENT_PORT", "STORE ./x",
    "CLIENT_PORT\u30009001\r"]

theorem ofLines_exact_sheet :
    ofLines Uuid.nil ("\n".intercalate sheet) = .ok ⟨Uuid.nil, .v4 ⟨[10, 0, 0, 9], rfl⟩, 6001, 9001⟩
    ∧ ofLines Uuid.nil ("\n".intercalate (sheet.filter counts ++ ["PORT", "RAFT 2"]))
      = ofLines Uuid.nil ("\n".intercalate sheet)
    ∧ ofLines Uuid.nil "IPADDR 10.0.0.9\r\nPORT 70000\nPORT 6001\nIPADDR nowhere"
      = .error (.configuration "Port 70000 is out of range")
    ∧ ofLines Uuid.nil "PORT 6001\nIPADDR 10.0.0.9" = .error (.configuration
      "Peer 00000000-0000-0000-0000-000000000000 is missing IPADDR, PORT or CLIENT_PORT") := by
  obtain ⟨-, -, hread, -, -, -, hmoved⟩ := ofLines_exact Uuid.nil ("\n".intercalate sheet)
  obtain ⟨-, -, -, hfault, -⟩ := ofLines_exact Uuid.nil
    "IPADDR 10.0.0.9\r\nPORT 70000\nPORT 6001\nIPADDR nowhere"
  obtain ⟨-, -, -, -, hmissing, -⟩ := ofLines_exact Uuid.nil "PORT 6001\nIPADDR 10.0.0.9"
  have hsheet : statements ("\n".intercalate sheet)
      = [⟨.ip, "10.0.0.9"⟩, ⟨.service, "6000"⟩, ⟨.service, "6001"⟩, ⟨.client, "9001"⟩] := by decide
  refine ⟨(hread _).mpr ?_, hmoved sheet _ (by decide) (by decide), ?_, hmissing (by decide) ?_⟩
  · rw [hsheet]
    exact ⟨by decide, rfl, by decide, by decide, by decide⟩
  · exact hfault [⟨.ip, "10.0.0.9"⟩] ⟨.service, "70000"⟩ [⟨.service, "6001"⟩, ⟨.ip, "nowhere"⟩] _
      (by decide) (by decide) (by decide)
  · intro hall
    obtain ⟨s, hs, hk⟩ := hall .client
    revert s
    decide

end Rendezvous.Peer
