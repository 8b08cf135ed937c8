/-
Rendezvous/Proofs/Lines.lean

Definition files read back.

A row is a word, some spaces and another word.  A text of rows, each ended by a
line feed, falls into these lines (`linesOf_cutAt`) and each line into these
words (`fields_row`), so a peer file of rows is read one row after the other
(`ofLines_rows`).  The file that a snapshot has of a peer is such a text, and it is
read back as that peer, whatever the cluster (`ofLines_peerFile`).
-/
import Rendezvous.Peer.Directory
import Rendezvous.Proofs.Address
import Rendezvous.Proofs.Json
import Rendezvous.Snapshot

namespace Rendezvous

namespace Text

/-! ### Words -/

/-- A text without blanks that is not empty. -/
def IsWord (w : String) : Prop := w.toList ≠ [] ∧ ∀ c ∈ w.toList, isBlank c = false

instance (w : String) : Decidable (IsWord w) :=
  @instDecidableAnd _ _ inferInstance (List.decidableBAll _ _)

theorem isBlank_of_digit {radix : Nat} {c : Char} (h : (digit? radix c).isSome) :
    isBlank c = false := by
  obtain ⟨d, hd⟩ := Option.isSome_iff_exists.mp h
  rw [digit?, Option.filter_eq_some_iff] at hd
  have hrange : (48 ≤ c.toNat ∧ c.toNat ≤ 57) ∨ (97 ≤ c.toNat ∧ c.toNat ≤ 102)
      ∨ 65 ≤ c.toNat ∧ c.toNat ≤ 70 := by
    by_contra hnone
    simp only [not_or] at hnone
    rw [if_neg hnone.1, if_neg hnone.2.1, if_neg hnone.2.2] at hd
    cases hd.1
  simp only [isBlank, Bool.eq_false_iff, ne_eq, Bool.or_eq_true, Bool.and_eq_true,
    decide_eq_true_eq, beq_iff_eq]
  omega

theorem isWord_decimal (n : Nat) : IsWord (decimal n) := by
  rw [IsWord, decimal, String.toList_ofList]
  refine ⟨Nat.toDigits_ne_nil, fun c hc => ?_⟩
  exact isBlank_of_digit (isSome_digit?_of_mem_toDigits (by decide) (by decide) hc)

theorem isWord_uuid (u : Uuid) : IsWord u.text := by
  rw [IsWord, Uuid.text, String.toList_ofList]
  constructor
  · simp [Uuid.chars]
  · intro c hc
    rcases Uuid.mem_chars hc with hdigit | rfl
    · obtain ⟨d, hd, rfl⟩ := Uuid.mem_digits hdigit
      exact isBlank_of_digit (Option.isSome_of_eq_some (digit?_digitChar hd))
    · decide

theorem isWord_address (a : IpAddr) : IsWord a.text := by
  constructor
  · intro hnil
    have hread := a.parse?_text
    rw [String.toList_eq_nil_iff.mp hnil] at hread
    cases hread
  · intro c hc
    rcases a.mem_text hc with hdigit | rfl | rfl
    · exact isBlank_of_digit hdigit
    · decide
    · decide

/-! ### Lines -/

/-- Lines that all end in a line feed are the lines of the whole. -/
theorem linesOf_cutAt {ls : List (List Char)}
    (h : ∀ l ∈ ls, '\n' ∉ l ∧ l.getLast? ≠ some '\r') :
    linesOf (cutAt (· == '\n') (ls.flatMap (· ++ ['\n']))) = ls := by
  induction ls with
  | nil => rfl
  | cons l ls ih =>
    obtain ⟨hfeed, hreturn⟩ := h l List.mem_cons_self
    have hl : ∀ c ∈ l, (c == '\n') = false := fun c hc =>
      beq_eq_false_iff_ne.mpr fun heq => hfeed (heq ▸ hc)
    rw [List.flatMap_cons, List.append_assoc, List.singleton_append, cutAt_append hl rfl]
    have hrest := ih fun l' hl' => h l' (List.mem_cons_of_mem _ hl')
    -- what follows the line feed is cut into one stretch at least
    rcases hcut : cutAt (· == '\n') (ls.flatMap (· ++ ['\n'])) with _ | ⟨w, ws⟩
    · exact absurd hcut (cutAt_ne_nil)
    · rw [linesOf, ← hcut, hrest, dropEnding, if_neg hreturn]
      exact nofun

/-! ### Rows -/

/-- A line of two words with spaces between them. -/
structure Row where
  key : String
  spaces : Nat
  value : String

namespace Row

/-- The characters of a row. -/
def chars (r : Row) : List Char :=
  r.key.toList ++ (List.replicate (r.spaces + 1) ' ' ++ r.value.toList)

/-- Both are words. -/
structure Clean (r : Row) : Prop where
  key : IsWord r.key
  value : IsWord r.value

end Row

theorem fields_row {r : Row} (h : r.Clean) : fields (String.ofList r.chars) = [r.key, r.value] := by
  obtain ⟨⟨hkey, hkeys⟩, hvalue, hvalues⟩ := h
  -- the spaces between the words are cut into stretches of nothing
  have hspaces : ∀ n, (cutAt isBlank (List.replicate n ' ' ++ r.value.toList)).filter
      (fun w => !w.isEmpty) = [r.value.toList] := by
    intro n
    induction n with
    | zero =>
      rw [List.replicate_zero, List.nil_append, cutAt_eq_self hvalues]
      simp [hvalue]
    | succ n ih =>
      rw [List.replicate_succ, List.cons_append, cutAt, if_pos (by decide)]
      exact ih
  rw [fields, String.toList_ofList, Row.chars, List.replicate_succ, List.cons_append,
    cutAt_append hkeys (by decide), List.filter_cons_of_pos (by simp [hkey]), hspaces]
  simp only [List.map_cons, List.map_nil, String.ofList_toList]

theorem Row.Clean.line {r : Row} (h : r.Clean) :
    '\n' ∉ r.chars ∧ r.chars.getLast? ≠ some '\r' := by
  obtain ⟨⟨-, hkeys⟩, hvalue, hvalues⟩ := h
  constructor
  · intro hmem
    simp only [Row.chars, List.mem_append, List.mem_replicate] at hmem
    rcases hmem with hmem | ⟨-, heq⟩ | hmem
    · cases hkeys _ hmem
    · cases heq
    · cases hvalues _ hmem
  · intro hlast
    rw [Row.chars, ← List.append_assoc, List.getLast?_append_of_ne_nil _ hvalue] at hlast
    cases hvalues _ (List.mem_of_getLast? hlast)

/-- **The lines of rows are the rows.** -/
theorem lines_rows {rows : List Row} (h : ∀ r ∈ rows, r.Clean) :
    lines (String.ofList (rows.flatMap fun r => r.chars ++ ['\n']))
      = rows.map fun r => String.ofList r.chars := by
  have hlines : ∀ l ∈ rows.map Row.chars, '\n' ∉ l ∧ l.getLast? ≠ some '\r' := by
    intro l hl
    obtain ⟨r, hr, rfl⟩ := List.mem_map.mp hl
    exact (h r hr).line
  have hcut := linesOf_cutAt hlines
  rw [List.flatMap_map] at hcut
  rw [lines, String.toList_ofList, hcut, List.map_map]
  rfl

end Text

namespace Peer

open Text

/-! ### Peer files -/

/-- Take in a row. -/
def Facts.row (f : Facts) (r : Row) : Except Error Facts := f.set r.key r.value

theorem Facts.line_row (f : Facts) {r : Row} (h : r.Clean) :
    f.line (String.ofList r.chars) = f.row r := by
  rw [Facts.line, fields_row h]
  rfl

/-- **A peer file of rows is read one row after the other.** -/
theorem ofLines_rows (id : Uuid) {rows : List Row} (h : ∀ r ∈ rows, r.Clean) :
    ofLines id (String.ofList (rows.flatMap fun r => r.chars ++ ['\n']))
      = (rows.foldlM Facts.row {}).bind (Facts.peer id) := by
  have hfold : ∀ f, (rows.map fun r => String.ofList r.chars).foldlM Facts.line f
      = rows.foldlM Facts.row f := by
    induction rows with
    | nil => exact fun f => rfl
    | cons r rows ih =>
      intro f
      have hrest := ih fun r' hr' => h r' (List.mem_cons_of_mem _ hr')
      rw [List.map_cons, List.foldlM_cons, List.foldlM_cons, f.line_row (h r List.mem_cons_self)]
      exact bind_congr hrest
  rw [ofLines, lines_rows h, hfold]
  rfl

/-! ### Listed names -/

variable {path name stem : String} {d : Directory} {names : List String} {p : Peer} {l : List Peer}

/-- Whether a name is that of a file to be read. -/
def isFileName (name : String) : Bool := (splitName name).2 = some extension

theorem readListed_cons (hname : splitName name = (stem, some extension))
    (hfile : readFile path d name stem = .ok p) (hrest : readListed path d names = .ok l) :
    readListed path d (name :: names) = .ok (p :: l) := by
  rw [readListed, hname]
  dsimp only
  rw [if_pos rfl, hfile, hrest]
  rfl

theorem readListed_cons_of_not (h : ¬ isFileName name) :
    readListed path d (name :: names) = readListed path d names := by
  rw [readListed]
  rcases hsplit : splitName name with ⟨stem, _ | ext⟩
  · rfl
  · have hext : ext ≠ extension := fun heq => h (by simp [isFileName, hsplit, heq])
    exact if_neg hext

end Peer

/-- A file that holds a text is read as that text. -/
theorem Directory.readText_of_get? {d : Directory} {name text : String}
    (h : d.get? name = some (.file (Text.octetsOf text))) : d.readText name = .ok text := by
  rw [readText, h]
  dsimp only
  rw [Text.octetsOf, Text.decodeUtf8?_encodeUtf8, String.ofList_toList]

/-! ### The files of a snapshot -/

namespace Snapshot

open Text

variable {cluster address service client : String}

/-- The rows of a peer file. -/
def peerRows (cluster address service client : String) : List Row :=
  [⟨"RAFT", 8, cluster⟩, ⟨"IPADDR", 6, address⟩, ⟨"PORT", 8, service⟩,
    ⟨"CLIENT_PORT", 1, client⟩, ⟨"STORE", 7, "./*.raftdb"⟩]

theorem toList_peerRows (cluster address service client : String) :
    ("RAFT         " ++ cluster ++ "\nIPADDR       " ++ address ++ "\nPORT         " ++ service
      ++ "\nCLIENT_PORT  " ++ client ++ "\nSTORE        ./*.raftdb\n").toList
      = (peerRows cluster address service client).flatMap fun r => r.chars ++ ['\n'] := by
  simp only [String.toList_append, peerRows, List.flatMap_cons, List.flatMap_nil, Row.chars,
    List.append_assoc]
  rfl

theorem clean_peerRows (hcluster : IsWord cluster) (haddress : IsWord address)
    (hservice : IsWord service) (hclient : IsWord client) :
    ∀ r ∈ peerRows cluster address service client, r.Clean := by
  simp only [peerRows, List.forall_mem_cons]
  have hkeys : ∀ w ∈ ["RAFT", "IPADDR", "PORT", "CLIENT_PORT", "STORE", "./*.raftdb"],
      IsWord w := by decide
  simp only [List.forall_mem_cons] at hkeys
  obtain ⟨hraft, hip, hport, hclientPort, hstore, hpath, -⟩ := hkeys
  exact ⟨⟨hraft, hcluster⟩, ⟨hip, haddress⟩, ⟨hport, hservice⟩, ⟨hclientPort, hclient⟩,
    ⟨hstore, hpath⟩, nofun⟩

/-- What the rows say. -/
theorem foldlM_peerRows {ip : IpAddr} {p q : UInt16} (haddress : IpAddr.parse? address = some ip)
    (hservice : port? service = some p) (hclient : port? client = some q) :
    (peerRows cluster address service client).foldlM Peer.Facts.row {}
      = .ok ⟨some ip, some p, some q⟩ := by
  simp only [peerRows, List.foldlM_cons, List.foldlM_nil, Peer.Facts.row, Peer.Facts.set,
    haddress, hservice, hclient, bind, Except.bind, pure, Except.pure]
  rfl

theorem peerFile_eq_rows (s : Snapshot) (p : Peer) :
    s.peerFile p = String.ofList ((peerRows s.clusterId.text p.ip.text
      (decimal p.servicePort.toNat) (decimal p.clientPort.toNat)).flatMap
        fun r => r.chars ++ ['\n']) :=
  String.toList_inj.mp ((toList_peerRows _ _ _ _).trans String.toList_ofList.symm)

/-- **The file of a peer is read back as that peer**, whatever the cluster. -/
theorem ofLines_peerFile (s : Snapshot) (p : Peer) :
    Peer.ofLines p.id (s.peerFile p) = .ok p := by
  have hclean : ∀ r ∈ peerRows s.clusterId.text p.ip.text (decimal p.servicePort.toNat)
      (decimal p.clientPort.toNat), r.Clean :=
    clean_peerRows (isWord_uuid _) (isWord_address _) (isWord_decimal _) (isWord_decimal _)
  rw [peerFile_eq_rows, Peer.ofLines_rows _ hclean,
    foldlM_peerRows p.ip.parse?_text (port?_decimal _) (port?_decimal _)]
  rfl

end Snapshot

end Rendezvous
