/-
Rendezvous/Proofs/Message.lean

Messages on the wire.

Requests and replies are read back from their bytes (`Request.decode_encode`,
`Response.decode_encode`).  A record that is written as an object has its known
fields, each once, so it is read as it is (`Decoder.record_ofFields`); what is
left is one decoder for each field.  A list is read item by item
(`Decoder.list_of_written`), and a value that is sent with a request is the one
that is received (`Http.Request.json_withJson`).
-/
import Mathlib.Data.List.Forall2
import Rendezvous.Http.Router
import Rendezvous.Proofs.Tree

namespace Rendezvous

namespace Json

variable {α : Type}

/-! ### Lists -/

/-- A list of trees that may be written for a list of values. -/
def WrittenList (written : α → Tree → Prop) (l : List α) (t : Tree) : Prop :=
  ∃ items, List.Forall₂ written l items ∧ t = Tree.ofList items

theorem writtenList_map {written : α → Tree → Prop} {f : α → Tree} (h : ∀ a, written a (f a))
    (l : List α) : WrittenList written l (Tree.ofList (l.map f)) := by
  refine ⟨l.map f, ?_, rfl⟩
  rw [List.forall₂_map_right_iff]
  exact List.forall₂_same.mpr fun a _ => h a

theorem WrittenList.isPlain {written : α → Tree → Prop} {l : List α} {t : Tree}
    (h : WrittenList written l t) (hplain : ∀ a ∈ l, ∀ t, written a t → t.IsPlain) :
    t.IsPlain := by
  obtain ⟨items, hitems, rfl⟩ := h
  refine .list fun item hitem => ?_
  induction hitems with
  | nil => cases hitem
  | cons hfirst _ ih =>
    rcases List.mem_cons.mp hitem with rfl | hrest
    · exact hplain _ (List.mem_cons_self ..) _ hfirst
    · exact ih (fun a ha => hplain a (List.mem_cons_of_mem _ ha)) hrest

/-! ### Decoders of trees that were written -/

namespace Decoder

theorem int_ofInt {lo hi i : Int} (hlo : lo ≤ i) (hhi : i < hi) :
    int lo hi (Tree.ofInt i) = .ok i :=
  if_pos ⟨hlo, hhi⟩

theorem nat_ofNat {bound n : Nat} (h : n < bound) : nat bound (Tree.ofNat n) = .ok n := by
  have hint : int 0 bound (Tree.ofNat n) = .ok (n : Int) := int_ofInt (by omega) (by omega)
  rw [nat, hint]
  rfl

/-- Where each item is read as its value the list is read as the list of values. -/
theorem list_of_written {item : Decoder α} {written : α → Tree → Prop} {l : List α} {t : Tree}
    (h : WrittenList written l t) (hitem : ∀ a ∈ l, ∀ t, written a t → item t = .ok a) :
    list item t = .ok l := by
  obtain ⟨items, hitems, rfl⟩ := h
  have hread : items.mapM item = .ok l := by
    induction hitems with
    | nil => rfl
    | cons hfirst _ ih =>
      rw [List.mapM_cons, hitem _ (List.mem_cons_self ..) _ hfirst,
        ih fun a ha => hitem a (List.mem_cons_of_mem _ ha)]
      rfl
  rw [Tree.ofList, list, hread]
  rfl

theorem list_ofList {item : Decoder α} {f : α → Tree} {l : List α}
    (h : ∀ a ∈ l, item (f a) = .ok a) : list item (Tree.ofList (l.map f)) = .ok l := by
  have hwritten : WrittenList (fun a t => f a = t) l (Tree.ofList (l.map f)) :=
    writtenList_map (fun _ => rfl) l
  refine list_of_written hwritten ?_
  rintro a ha _ rfl
  exact h a ha

/-- A text or nothing, and null for nothing. -/
theorem optional_string (o : Option String) :
    optional string ((o.map Tree.ofString).getD .null) = .ok o := by
  cases o <;> rfl

/-! #### Records -/

variable {known : Fields} {l : List (String × Tree)}

/-- Fields that are known, accepted and new are all kept. -/
theorem checkFields_plain {seen : List String} (hnames : (l.map Prod.fst).Nodup)
    (hseen : ∀ e ∈ l, e.1 ∉ seen)
    (hknown : ∀ e ∈ l, ∃ check, known.lookup e.1 = some check ∧ check e.2 = .ok ()) :
    checkFields known seen (l.map fun e => (.plain e.1, e.2)) = .ok l := by
  induction l generalizing seen with
  | nil => rfl
  | cons e l ih =>
    obtain ⟨check, hlookup, hcheck⟩ := hknown e (List.mem_cons_self ..)
    obtain ⟨hnew, hrest⟩ := List.nodup_cons.mp hnames
    have hmore : checkFields known (e.1 :: seen) (l.map fun e => (.plain e.1, e.2)) = .ok l := by
      refine ih hrest (fun e' he' => ?_) fun e' he' => hknown e' (List.mem_cons_of_mem _ he')
      intro hmem
      rcases List.mem_cons.mp hmem with heq | hold
      · exact hnew (heq ▸ List.mem_map_of_mem he')
      · exact hseen e' (List.mem_cons_of_mem _ he') hold
    have hkey : key (.plain e.1) = .ok e.1 := rfl
    rw [List.map_cons, checkFields, hkey]
    show Except.bind (.ok e.1) _ = _
    simp only [Except.bind, hlookup, if_neg (hseen e (List.mem_cons_self ..)), hcheck, hmore]
    rfl

/-- **A record is read as it was written.** -/
theorem record_ofFields (hnames : (l.map Prod.fst).Nodup)
    (hknown : ∀ e ∈ l, ∃ check, known.lookup e.1 = some check ∧ check e.2 = .ok ()) :
    record known (Tree.ofFields l) = .ok l := by
  rw [Tree.ofFields, record, checkFields_plain hnames (fun _ _ => List.not_mem_nil) hknown]
  rfl

theorem field_ok {d : Decoder α} {t : Tree} {a : α} (name : String) (h : d t = .ok a) :
    (field name d).2 t = .ok () := by
  show (d t).map _ = _
  rw [h]
  rfl

end Decoder

end Json

/-! ### Requests that carry JSON -/

namespace Http

open Json

/-- Headers and body do not decide where a request leads. -/
theorem resolve_of_target {ε : Type} (routes : List (Route ε)) (method target : String)
    (headers : List (String × String)) (body : List UInt8) :
    resolve routes ⟨method, target, headers, body⟩ = resolve routes { method, target } := rfl

namespace Request

theorem hasJson_withJson (method target : String) (t : Tree) :
    (withJson method target t).hasJson = true := by
  show Option.any MediaType.isJson ((some Reply.jsonType).bind MediaType.parse?) = true
  decide

/-- What is carried is what was put in. -/
theorem json_withJson {α : Type} {t : Tree} {d : Decoder α} {a : α} (ht : t.IsPlain)
    (h : d t = .ok a) (method target : String) : (withJson method target t).json d = .ok a := by
  rw [json, if_pos (hasJson_withJson ..)]
  show (d (Json.read (Text.encodeUtf8 t.chars)).root).mapError refusal = _
  rw [read_chars ht, h]
  rfl

end Request

end Http

namespace Kv

open Json

/-! ### Values -/

theorem octetsTree_isPlain (l : List UInt8) : (octetsTree l).IsPlain := by
  refine .list fun t ht => ?_
  obtain ⟨b, -, rfl⟩ := List.mem_map.mp ht
  exact .int (Nat.lt_trans b.toNat_lt (by decide))

theorem octetsDecoder_octetsTree (l : List UInt8) : octetsDecoder (octetsTree l) = .ok l := by
  refine Decoder.list_ofList fun b _ => ?_
  show (Decoder.nat 256 (Tree.ofNat b.toNat)).map UInt8.ofNat = _
  rw [Decoder.nat_ofNat b.toNat_lt]
  show Except.ok (UInt8.ofNat b.toNat) = _
  rw [UInt8.ofNat_toNat]

/-! ### Requests -/

namespace Request

theorem tree_isPlain (r : Request) : r.tree.IsPlain := by
  refine .fields fun e he => ?_
  simp only [List.mem_cons, List.not_mem_nil, or_false] at he
  rcases he with rfl | rfl | rfl
  · exact .string r.key
  · exact octetsTree_isPlain r.value
  · cases r.requestId with
    | none => exact .null
    | some id => exact .string id

/-- **A request is the request that was written.** -/
theorem decoder_tree (r : Request) : decoder r.tree = .ok r := by
  have hvalue := octetsDecoder_octetsTree r.value
  have hid := Decoder.optional_string r.requestId
  have hrecord : Decoder.record fields r.tree = .ok [("key", Tree.ofString r.key),
      ("value", octetsTree r.value), ("rncui", (r.requestId.map Tree.ofString).getD .null)] := by
    have hnames : ["key", "value", "rncui"].Nodup := by decide
    refine Decoder.record_ofFields hnames fun e he => ?_
    simp only [List.mem_cons, List.not_mem_nil, or_false] at he
    rcases he with rfl | rfl | rfl
    · exact ⟨_, rfl, rfl⟩
    · exact ⟨_, rfl, Decoder.field_ok "value" hvalue⟩
    · exact ⟨_, rfl, Decoder.field_ok "rncui" hid⟩
  rw [decoder, hrecord]
  show ((octetsDecoder (octetsTree r.value)).bind fun value =>
    (Decoder.optional Decoder.string ((r.requestId.map Tree.ofString).getD .null)).bind fun id =>
      Except.ok (⟨r.key, value, id⟩ : Request)) = _
  rw [hvalue, hid]
  rfl

/-- A request is read back from its bytes. -/
theorem decode_encode (r : Request) : decode r.encode = .ok r := by
  rw [decode, encode, Decoder.decode_chars _ r.tree_isPlain, decoder_tree]
  rfl

end Request

/-! ### Replies -/

namespace Response

theorem statusDecoder_ofInt (status : Int32) :
    statusDecoder (Tree.ofInt status.toInt) = .ok status := by
  have hint : Decoder.int (-2147483648) 2147483648 (Tree.ofInt status.toInt) = .ok status.toInt :=
    Decoder.int_ofInt status.le_toInt status.toInt_lt
  rw [statusDecoder, hint]
  show Except.ok (Int32.ofInt status.toInt) = _
  rw [Int32.ofInt_toInt]

theorem tree_isPlain (r : Response) : r.tree.IsPlain := by
  refine .fields fun e he => ?_
  simp only [List.mem_cons, List.not_mem_nil, or_false] at he
  rcases he with rfl | rfl
  · have hlo := r.status.le_toInt
    have hhi := r.status.toInt_lt
    have hsmall : r.status.toInt.natAbs ≤ 2147483648 := by omega
    exact .int (Nat.lt_of_le_of_lt hsmall (by decide))
  · exact octetsTree_isPlain r.value

/-- **A reply is the reply that was written.** -/
theorem decoder_tree (r : Response) : decoder r.tree = .ok r := by
  have hstatus := statusDecoder_ofInt r.status
  have hvalue := octetsDecoder_octetsTree r.value
  have hrecord : Decoder.record fields r.tree = .ok [("status", Tree.ofInt r.status.toInt),
      ("value", octetsTree r.value)] := by
    have hnames : ["status", "value"].Nodup := by decide
    refine Decoder.record_ofFields hnames fun e he => ?_
    simp only [List.mem_cons, List.not_mem_nil, or_false] at he
    rcases he with rfl | rfl
    · exact ⟨_, rfl, Decoder.field_ok "status" hstatus⟩
    · exact ⟨_, rfl, Decoder.field_ok "value" hvalue⟩
  rw [decoder, hrecord]
  show ((statusDecoder (Tree.ofInt r.status.toInt)).bind fun status =>
    (octetsDecoder (octetsTree r.value)).bind fun value =>
      Except.ok (⟨status, value⟩ : Response)) = _
  rw [hstatus, hvalue]
  rfl

/-- A reply is read back from its bytes. -/
theorem decode_encode (r : Response) : decode r.encode = .ok r := by
  rw [decode, encode, Decoder.decode_chars _ r.tree_isPlain, decoder_tree]
  rfl

end Response

end Kv

end Rendezvous
