/-
Rendezvous/Kv/Message.lean

Key-value requests and replies.

Messages travel as JSON, a value as the list of its octets.  Whatever is
written can be read back, and the bytes of a request that a front end passes on
are written anew, so they always have this form.
-/
import Rendezvous.Error
import Rendezvous.Json.Decoder
import Rendezvous.Uuid

namespace Rendezvous

open Json

/-- A text that is no JSON of the expected shape, as a cause. -/
def Json.Fault.error : Json.Fault → Error
  | grammar => .serialization "malformed JSON"
  | shape => .serialization "JSON of another shape"

namespace Kv

/-! ### Octets -/

def octetsTree (l : List UInt8) : Tree := Tree.ofList (l.map fun b => Tree.ofNat b.toNat)

def octetsDecoder : Decoder (List UInt8) :=
  Decoder.list fun t => (Decoder.nat 256 t).map UInt8.ofNat

/-! ### Requests -/

/-- A request to write or to read a key; `requestId` tells repeated writes
apart. -/
structure Request where
  key : String
  value : List UInt8
  requestId : Option String
  deriving DecidableEq, Repr, Inhabited

namespace Request

/-- A write under the identifier that a random draw gives. -/
def write (key : String) (value : List UInt8) (draw : Octets 16) : Request :=
  ⟨key, value, some (Uuid.ofDraw draw).text⟩

def read (key : String) : Request := ⟨key, [], none⟩

def tree (r : Request) : Tree :=
  Tree.ofFields [("key", Tree.ofString r.key), ("value", octetsTree r.value),
    ("rncui", (r.requestId.map Tree.ofString).getD .null)]

def fields : Decoder.Fields :=
  [Decoder.field "key" Decoder.string, Decoder.field "value" octetsDecoder,
    Decoder.field "rncui" (Decoder.optional Decoder.string)]

def decoder : Decoder Request := fun t => do
  let l ← Decoder.record fields t
  let key ← Decoder.required l "key" Decoder.string
  let value ← Decoder.defaulted l "value" octetsDecoder []
  let id ← Decoder.defaulted l "rncui" (Decoder.optional Decoder.string) none
  .ok ⟨key, value, id⟩

/-- The bytes of a request. -/
def encode (r : Request) : List UInt8 := Text.encodeUtf8 r.tree.chars

/-- The request of some bytes. -/
def decode (l : List UInt8) : Except Error Request :=
  (decoder.decode l).mapError Fault.error

end Request

/-! ### Replies -/

/-- A reply: zero for success, and the value or the reason. -/
structure Response where
  status : Int32
  value : List UInt8
  deriving DecidableEq, Repr, Inhabited

namespace Response

def ok (value : List UInt8) : Response := ⟨0, value⟩

def err (reason : String) : Response := ⟨-1, Text.octetsOf reason⟩

def isOk (r : Response) : Bool := r.status = 0

def tree (r : Response) : Tree :=
  Tree.ofFields [("status", Tree.ofInt r.status.toInt), ("value", octetsTree r.value)]

def statusDecoder : Decoder Int32 := fun t =>
  (Decoder.int (-2147483648) 2147483648 t).map Int32.ofInt

def fields : Decoder.Fields :=
  [Decoder.field "status" statusDecoder, Decoder.field "value" octetsDecoder]

def decoder : Decoder Response := fun t => do
  let l ← Decoder.record fields t
  let status ← Decoder.required l "status" statusDecoder
  let value ← Decoder.defaulted l "value" octetsDecoder []
  .ok ⟨status, value⟩

/-- The bytes of a reply. -/
def encode (r : Response) : List UInt8 := Text.encodeUtf8 r.tree.chars

/-- The reply of some bytes. -/
def decode (l : List UInt8) : Except Error Response :=
  (decoder.decode l).mapError Fault.error

end Response

end Kv

end Rendezvous
