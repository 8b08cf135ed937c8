/-
Rendezvous/Proofs/Wire.lean

The gossip wire format.

Records and members are read back from their JSON form, in whatever order each of
them lists its tags (`MemberRecord.decoder_of_written`,
`Member.decoder_of_written`): an object of tags is read as the table of its
entries, and this does not depend on their order (`Table.ofList_enumeration`).
Lists of them are read item by item, so they come back in the same order.

All that one agent sends to another is such a list, and so is what it tells those
who ask for members (`gossip_lossless`).
-/
import Rendezvous.Gossip.Query
import Rendezvous.Proofs.Address
import Rendezvous.Proofs.Agent
import Rendezvous.Proofs.Message
import Rendezvous.Service.Agent

namespace Rendezvous

variable {α : Type}

/-- Of the entries of a table in any order the table is made again. -/
theorem Table.ofList_enumeration {t : Table α} {l : List (String × α)} (h : l.Perm t.toList) :
    ofList l = t := by
  refine ext_get? fun k => ?_
  rw [ofList, get?_insertAll _ (enumeration_nodup_keys h), lookup_enumeration h, get?_empty,
    Option.or_none]

/-! ### Tables that were written -/

namespace Json.Decoder

theorem table_ofFields {value : Decoder α} {f : α → Tree} {t : Table α}
    {l : List (String × α)} (hl : l.Perm t.toList) (h : ∀ a, value (f a) = .ok a) :
    table value (Tree.ofFields (l.map fun e => (e.1, f e.2))) = .ok t := by
  have hread : ((l.map fun e => (e.1, f e.2)).map fun e => (Quoted.plain e.1, e.2)).mapM
      (fun e => do
        let k ← key e.1
        let v ← value e.2
        .ok (k, v)) = .ok l := by
    -- this does not depend on the table
    clear hl
    induction l with
    | nil => rfl
    | cons e l ih =>
      rw [List.map_cons, List.map_cons, List.mapM_cons, ih]
      simp only [key, h]
      rfl
  rw [Tree.ofFields, table, hread, ← Table.ofList_enumeration hl]
  rfl

end Json.Decoder

open Json

/-! ### Tags -/

/-- The JSON form of tags that are listed in some order. -/
def TagSet.treeOf (l : List (String × String)) : Tree :=
  Tree.ofFields (l.map fun e => (e.1, Tree.ofString e.2))

theorem TagSet.treeOf_isPlain (l : List (String × String)) : (treeOf l).IsPlain := by
  refine .fields fun e he => ?_
  obtain ⟨e', -, rfl⟩ := List.mem_map.mp he
  exact .string e'.2

theorem TagSet.decoder_treeOf {tags : TagSet} {l : List (String × String)}
    (h : l.Perm tags.toList) : decoder (treeOf l) = .ok tags :=
  Decoder.table_ofFields h fun _ => rfl

theorem IpAddr.decoder_text (a : IpAddr) : decoder (Tree.ofString a.text) = .ok a :=
  Decoder.stringOf_ofString a.parse?_text

/-! ### Records -/

namespace MemberRecord

variable {r : MemberRecord} {t : Tree}

/-- A record as agents hold it: its heartbeat has 64 bits, and of the addresses
only those of sixteen octets have a scope. -/
structure Proper (r : MemberRecord) : Prop where
  heartbeat : r.heartbeat < Nat.pow 2 64
  scope : r.agentAddr.scope = 0 ∨ ∃ o, r.agentAddr.ip = .v6 o

/-- The fields of a record that lists its tags in some order. -/
def writtenFields (r : MemberRecord) (l : List (String × String)) : List (String × Tree) :=
  [("name", Tree.ofString r.name), ("addr", Tree.ofString r.addr.text),
    ("agent_addr", Tree.ofString r.agentAddr.text), ("heartbeat", Tree.ofNat r.heartbeat),
    ("left", .bool r.left), ("tags", TagSet.treeOf l)]

/-- A JSON form of a record: its tags may be listed in any order. -/
def Written (r : MemberRecord) (t : Tree) : Prop :=
  ∃ l, l.Perm r.tags.toList ∧ t = Tree.ofFields (r.writtenFields l)

theorem written_tree (r : MemberRecord) : r.Written r.tree := ⟨_, List.Perm.refl _, rfl⟩

theorem isPlain_of_written (h : r.Proper) (ht : r.Written t) : t.IsPlain := by
  obtain ⟨l, -, rfl⟩ := ht
  refine .fields fun e he => ?_
  simp only [writtenFields, List.mem_cons, List.not_mem_nil, or_false] at he
  rcases he with rfl | rfl | rfl | rfl | rfl | rfl
  · exact .string r.name
  · exact .string r.addr.text
  · exact .string r.agentAddr.text
  · exact .int h.heartbeat
  · exact .bool r.left
  · exact TagSet.treeOf_isPlain l

/-- **A record is the record that was written.** -/
theorem decoder_of_written (h : r.Proper) (ht : r.Written t) : decoder t = .ok r := by
  obtain ⟨l, hl, rfl⟩ := ht
  have haddr := IpAddr.decoder_text r.addr
  have hagent : SocketAddr.decoder (Tree.ofString r.agentAddr.text) = .ok r.agentAddr :=
    Decoder.stringOf_ofString (SocketAddr.parse?_text h.scope)
  have hbeat : heartbeatDecoder (Tree.ofNat r.heartbeat) = .ok r.heartbeat :=
    Decoder.nat_ofNat h.heartbeat
  have htags := TagSet.decoder_treeOf hl
  have hrecord : Decoder.record fields (Tree.ofFields (r.writtenFields l))
      = .ok (r.writtenFields l) := by
    -- no two fields have one name, and each is accepted by its own decoder
    have hnames : ["name", "addr", "agent_addr", "heartbeat", "left", "tags"].Nodup := by decide
    refine Decoder.record_ofFields hnames fun e he => ?_
    simp only [writtenFields, List.mem_cons, List.not_mem_nil, or_false] at he
    rcases he with rfl | rfl | rfl | rfl | rfl | rfl
    · exact ⟨_, rfl, rfl⟩
    · exact ⟨_, rfl, Decoder.field_ok "addr" haddr⟩
    · exact ⟨_, rfl, Decoder.field_ok "agent_addr" hagent⟩
    · exact ⟨(Decoder.field "heartbeat" heartbeatDecoder).2, rfl,
        Decoder.field_ok "heartbeat" hbeat⟩
    · exact ⟨_, rfl, rfl⟩
    · exact ⟨_, rfl, Decoder.field_ok "tags" htags⟩
  rw [decoder, hrecord]
  show ((IpAddr.decoder (Tree.ofString r.addr.text)).bind fun addr =>
    (SocketAddr.decoder (Tree.ofString r.agentAddr.text)).bind fun agentAddr =>
      (heartbeatDecoder (Tree.ofNat r.heartbeat)).bind fun heartbeat =>
        (TagSet.decoder (TagSet.treeOf l)).bind fun tags =>
          Except.ok (⟨r.name, addr, agentAddr, heartbeat, r.left, tags⟩ : MemberRecord)) = _
  rw [haddr, hagent, hbeat, htags]
  rfl

end MemberRecord

/-! ### Members -/

theorem MemberStatus.ofText?_text (m : MemberStatus) : ofText? m.text = some m := by
  cases m <;> decide

namespace Member

variable {m : Member} {t : Tree}

/-- The fields of a member that lists its tags in some order. -/
def writtenFields (m : Member) (l : List (String × String)) : List (String × Tree) :=
  [("name", Tree.ofString m.name), ("addr", Tree.ofString m.addr.text),
    ("status", Tree.ofString m.status.text), ("tags", TagSet.treeOf l)]

/-- A JSON form of a member: its tags may be listed in any order. -/
def Written (m : Member) (t : Tree) : Prop :=
  ∃ l, l.Perm m.tags.toList ∧ t = Tree.ofFields (m.writtenFields l)

theorem written_tree (m : Member) : m.Written m.tree := ⟨_, List.Perm.refl _, rfl⟩

theorem isPlain_of_written (ht : m.Written t) : t.IsPlain := by
  obtain ⟨l, -, rfl⟩ := ht
  refine .fields fun e he => ?_
  simp only [writtenFields, List.mem_cons, List.not_mem_nil, or_false] at he
  rcases he with rfl | rfl | rfl | rfl
  · exact .string m.name
  · exact .string m.addr.text
  · exact .string m.status.text
  · exact TagSet.treeOf_isPlain l

/-- **A member is the member that was written.** -/
theorem decoder_of_written (ht : m.Written t) : decoder t = .ok m := by
  obtain ⟨l, hl, rfl⟩ := ht
  have haddr := IpAddr.decoder_text m.addr
  have hstatus : Decoder.name MemberStatus.ofText? (Tree.ofString m.status.text)
      = .ok m.status := by
    rw [Tree.ofString, Decoder.name, Decoder.key]
    simp only [bind, Except.bind, MemberStatus.ofText?_text]
  have htags := TagSet.decoder_treeOf hl
  have hrecord : Decoder.record fields (Tree.ofFields (m.writtenFields l))
      = .ok (m.writtenFields l) := by
    have hnames : ["name", "addr", "status", "tags"].Nodup := by decide
    refine Decoder.record_ofFields hnames fun e he => ?_
    simp only [writtenFields, List.mem_cons, List.not_mem_nil, or_false] at he
    rcases he with rfl | rfl | rfl | rfl
    · exact ⟨_, rfl, rfl⟩
    · exact ⟨_, rfl, Decoder.field_ok "addr" haddr⟩
    · exact ⟨_, rfl, Decoder.field_ok "status" hstatus⟩
    · exact ⟨_, rfl, Decoder.field_ok "tags" htags⟩
  rw [decoder, hrecord]
  show ((IpAddr.decoder (Tree.ofString m.addr.text)).bind fun addr =>
    (Decoder.name MemberStatus.ofText? (Tree.ofString m.status.text)).bind fun status =>
      (TagSet.decoder (TagSet.treeOf l)).bind fun tags =>
        Except.ok (⟨m.name, addr, status, tags⟩ : Member)) = _
  rw [haddr, hstatus, htags]
  rfl

end Member

/-! ### What agents send -/

open Http

namespace Agent

variable {a b : Agent} {l : List MemberRecord} {t : Tree} {time : Nat}

theorem recordsTree_written (l : List MemberRecord) :
    WrittenList MemberRecord.Written l (recordsTree l) :=
  writtenList_map MemberRecord.written_tree l

theorem recordsTree_isPlain (hl : ∀ r ∈ l, r.Proper)
    (ht : WrittenList MemberRecord.Written l t) : t.IsPlain :=
  ht.isPlain fun r hr _ => MemberRecord.isPlain_of_written (hl r hr)

theorem recordsDecoder_of_written (hl : ∀ r ∈ l, r.Proper)
    (ht : WrittenList MemberRecord.Written l t) : recordsDecoder t = .ok l :=
  Decoder.list_of_written ht fun r hr _ => MemberRecord.decoder_of_written (hl r hr)

theorem decode_records (hl : ∀ r ∈ l, r.Proper) (ht : WrittenList MemberRecord.Written l t) :
    recordsDecoder.decode (Text.encodeUtf8 t.chars) = .ok l := by
  rw [Decoder.decode_chars _ (recordsTree_isPlain hl ht), recordsDecoder_of_written hl ht]

/-- A reply brings the records that were sent. -/
theorem received_json (hl : ∀ r ∈ l, r.Proper) (ht : WrittenList MemberRecord.Written l t) :
    received (some (.json 200 t)) = l := by
  have hsuccess : (Reply.json 200 t).isSuccess = true := rfl
  rw [received, if_pos hsuccess]
  show (recordsDecoder.decode (Text.encodeUtf8 t.chars)).toOption.getD [] = l
  rw [decode_records hl ht]
  rfl

/-- The records that another agent sends are merged, and all that there are then
are sent back. -/
theorem serve_sync (a : Agent) (time : Nat) (hl : ∀ r ∈ l, r.Proper)
    (ht : WrittenList MemberRecord.Written l t) :
    a.serve time (.withJson Request.post Path.sync t)
      = (.json 200 (recordsTree (a.merge time l).records), a.merge time l) := by
  have hroute : resolve routes (.withJson Request.post Path.sync t) = .endpoint .sync "" := by
    rw [Request.withJson, resolve_of_target]
    decide
  have hjson : (Request.withJson Request.post Path.sync t).json recordsDecoder = .ok l :=
    Request.json_withJson (recordsTree_isPlain hl ht) (recordsDecoder_of_written hl ht) ..
  have hwhole : ∀ p : Reply, p.toMethod Request.post = p := fun p => if_neg (by decide)
  rw [serve, hroute]
  dsimp only
  rw [answer, hjson]
  exact congrArg (·, a.merge time l) (hwhole _)

/-- Proper records stay proper. -/
theorem proper_records_merge (ha : ∀ r ∈ a.records, r.Proper) (hl : ∀ r ∈ l, r.Proper)
    (time : Nat) : ∀ r ∈ (a.merge time l).records, r.Proper := by
  intro r hr
  rcases List.mem_append.mp hr with hothers | hown
  · rcases mem_others_merge hothers with hold | hnew
    · exact ha r (List.mem_append_left _ hold)
    · exact hl r hnew
  · rw [own_merge] at hown
    exact ha r (List.mem_append_right _ hown)

end Agent

namespace Query

theorem membersTree_written (l : List Member) :
    WrittenList Member.Written l (Agent.membersTree l) :=
  writtenList_map Member.written_tree l

theorem decode_members {l : List Member} {t : Tree} (ht : WrittenList Member.Written l t) :
    membersDecoder.decode (Text.encodeUtf8 t.chars) = .ok l := by
  rw [Decoder.decode_chars _ (ht.isPlain fun _ _ _ => Member.isPlain_of_written)]
  exact Decoder.list_of_written ht fun _ _ _ => Member.decoder_of_written

/-- A reply lists the members that were sent. -/
theorem readReply_json {l : List Member} {t : Tree} (ht : WrittenList Member.Written l t)
    (agent : SocketAddr) : readReply agent (some (.json 200 t)) = .ok l := by
  have hstatus : ¬ (400 ≤ (Reply.json 200 t).status ∧ (Reply.json 200 t).status < 600) :=
    of_decide_eq_false rfl
  rw [readReply, if_neg hstatus]
  show (membersDecoder.decode (Text.encodeUtf8 t.chars)).mapError _ = _
  rw [decode_members ht]
  rfl

theorem serve_membersRequest (a : Agent) (time : Nat) :
    a.serve time membersRequest = (.json 200 (Agent.membersTree (a.view time)), a) := by
  have hroute : resolve Agent.routes membersRequest = .endpoint .members "" := by decide
  rw [Agent.serve, hroute]
  rfl

end Query

/-- **The gossip wire format is lossless.**  In whatever order each of them lists
its tags, records that are sent to an agent are the records that it merges, those
that it sends back are the records that are received, and members that are listed
are the members that a client reads.  In particular two agents that exchange all
their records, and a client that asks for members, get what the other side has. -/
theorem gossip_lossless :
    (∀ (l : List MemberRecord) (t : Tree), (∀ r ∈ l, r.Proper) →
      WrittenList MemberRecord.Written l t →
      Agent.recordsDecoder.decode (Text.encodeUtf8 t.chars) = .ok l
      ∧ (∀ (a : Agent) (time : Nat), a.serve time (.withJson Request.post Path.sync t)
        = (.json 200 (Agent.recordsTree (a.merge time l).records), a.merge time l))
      ∧ Agent.received (some (.json 200 t)) = l)
    ∧ (∀ (l : List Member) (t : Tree), WrittenList Member.Written l t →
      Query.membersDecoder.decode (Text.encodeUtf8 t.chars) = .ok l
      ∧ ∀ agent, Query.readReply agent (some (.json 200 t)) = .ok l)
    ∧ (∀ (a b : Agent) (time : Nat), (∀ r ∈ a.records, r.Proper) → (∀ r ∈ b.records, r.Proper) →
      Agent.received (some (b.serve time
          (.withJson Request.post Path.sync (Agent.recordsTree a.records))).1)
        = (b.merge time a.records).records)
    ∧ ∀ (a : Agent) (time : Nat) (agent : SocketAddr),
      Query.readReply agent (some (a.serve time Query.membersRequest).1) = .ok (a.view time) := by
  refine ⟨?records, ?members, ?exchange, ?query⟩
  case records =>
    intro l t hl ht
    exact ⟨Agent.decode_records hl ht, fun a time => Agent.serve_sync a time hl ht,
      Agent.received_json hl ht⟩
  case members =>
    intro l t ht
    exact ⟨Query.decode_members ht, Query.readReply_json ht⟩
  case exchange =>
    intro a b time ha hb
    rw [Agent.serve_sync b time ha (Agent.recordsTree_written _)]
    exact Agent.received_json (Agent.proper_records_merge hb ha time) (Agent.recordsTree_written _)
  case query =>
    intro a time agent
    rw [Query.serve_membersRequest]
    exact Query.readReply_json (Query.membersTree_written _) agent

/-- A record with a name that has to be escaped, a long address, the largest
heartbeat and two tags. -/
def distantRecord : MemberRecord where
  name := "\x01\"é"
  addr := .v4 ⟨[192, 168, 0, 9], rfl⟩
  agentAddr := ⟨.v6 ⟨[0xFE, 0x80, 0, 0, 0, 0, 0, 0, 0, 0, 0, 0, 0, 0, 0, 1], rfl⟩, 7000, 0⟩
  heartbeat := 18446744073709551615
  left := true
  tags := (Table.empty.insert "a" "1").insert "b" "\\"

/-- The tags of this record in another order than that of a table. -/
def distantTags : List (String × String) := [("b", "\\"), ("a", "1")]

/-- Two records and two members, one of each with its tags in another order. -/
theorem gossip_lossless_distant :
    let l := [distantRecord, default]
    let t := Tree.ofList [Tree.ofFields (distantRecord.writtenFields distantTags),
      (default : MemberRecord).tree]
    let members := l.map fun r => Agent.memberOf r .failed
    let membersTree := Tree.ofList
      [Tree.ofFields ((Agent.memberOf distantRecord .failed).writtenFields distantTags),
        (Agent.memberOf default .failed).tree]
    (∀ r ∈ l, r.Proper) ∧ WrittenList MemberRecord.Written l t
      ∧ WrittenList Member.Written members membersTree
      ∧ Agent.received (some (.json 200 t)) = l
      ∧ Query.readReply default (some (.json 200 membersTree)) = .ok members := by
  intro l t members membersTree
  have hproper : ∀ r ∈ l, r.Proper := by
    intro r hr
    simp only [l, List.mem_cons, List.not_mem_nil, or_false] at hr
    rcases hr with rfl | rfl
    · exact ⟨by decide, Or.inl rfl⟩
    · exact ⟨by decide, Or.inl rfl⟩
  have hperm : distantTags.Perm distantRecord.tags.toList := by decide
  have hrecords : WrittenList MemberRecord.Written l t :=
    ⟨_, .cons ⟨distantTags, hperm, rfl⟩ (.cons (MemberRecord.written_tree _) .nil), rfl⟩
  have hmembers : WrittenList Member.Written members membersTree :=
    ⟨_, .cons ⟨distantTags, hperm, rfl⟩ (.cons (Member.written_tree _) .nil), rfl⟩
  exact ⟨hproper, hrecords, hmembers, (gossip_lossless.1 l t hproper hrecords).2.2,
    (gossip_lossless.2.1 members membersTree hmembers).2 default⟩

end Rendezvous
