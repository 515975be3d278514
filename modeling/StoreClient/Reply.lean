import StoreClient.Document.Record
import StoreClient.Payload

/-!
# Replies

What the store answers to a fetch and to a listing of keys, and the codes of all messages. A reply
is written with all its fields; in reading, a field that is missing has its default.
-/

namespace StoreClient

/-! ## Codes -/

namespace Code

/-- A request for a value. -/
def fetch : UInt8 := 9

/-- The reply to a fetch. -/
def fetched : UInt8 := 10

/-- A request to store a value. -/
def store : UInt8 := 11

/-- The reply to a store. -/
def stored : UInt8 := 12

/-- A request to delete a value. -/
def delete : UInt8 := 13

/-- The reply to a delete. -/
def deleted : UInt8 := 14

/-- A request to list the keys of a bucket. -/
def listKeys : UInt8 := 17

/-- One of the replies to a listing. -/
def keysListed : UInt8 := 18

end Code

/-! ## Fetched values -/

/-- What is found at a location: a value and its causal context, as opaque octets. -/
structure FetchReply where
  value : Option Bytes := none
  vclock : Option Bytes := none
  deriving DecidableEq, Repr, Inhabited

namespace FetchReply

/-- The reply for a key without a value. -/
def notFound : FetchReply := {}

/-- The reply for a value without a context. -/
def found (value : Bytes) : FetchReply := { value := some value }

/-- The written form of a reply; what is not there is null. -/
def toValue (r : FetchReply) : Value :=
  .map [("value", .ofOption .binary r.value), ("vclock", .ofOption .binary r.vclock)]

/-- Replies in documents. -/
def record : Record FetchReply where
  name := "FetchReply"
  fields := [
    .of "value" (Document.toOption Document.toBytes) fun r v => { r with value := v },
    .of "vclock" (Document.toOption Document.toBytes) fun r v => { r with vclock := v }]
  initial := {}
  complete := false

/-- The message that carries a reply. -/
def toMessage (r : FetchReply) : Except Cause Message :=
  Payload.encode Code.fetched (.ok r.toValue)

end FetchReply

/-! ## Listed keys -/

/-- A part of the keys of a bucket, and whether it is the last part. -/
structure ListKeysReply where
  keys : List Bytes := []
  done : Bool := false
  deriving DecidableEq, Repr, Inhabited

namespace ListKeysReply

/-- The written form of a reply. -/
def toValue (r : ListKeysReply) : Value :=
  .map [("keys", .array (r.keys.map .binary)), ("done", .bool r.done)]

/-- Replies in documents. -/
def record : Record ListKeysReply where
  name := "ListKeysReply"
  fields := [
    .of "keys" (Document.toList Document.toBytes) fun r ks => { r with keys := ks },
    .of "done" Document.toBool fun r b => { r with done := b }]
  initial := {}
  complete := false

/-- The message that carries a reply. -/
def toMessage (r : ListKeysReply) : Except Cause Message :=
  Payload.encode Code.keysListed (.ok r.toValue)

end ListKeysReply

end StoreClient
