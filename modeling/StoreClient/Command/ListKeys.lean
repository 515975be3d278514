import StoreClient.ClientError
import StoreClient.Command
import StoreClient.Command.Request
import StoreClient.Reply

/-!
# Listing keys

One request, and replies with a part of the keys each, the last one marked. As an operation, the
listing has all keys for its value; as a stream, it yields them as they arrive.
-/

namespace StoreClient

/-- The command to list the keys of a bucket. -/
structure ListKeys where
  within : Namespace
  /-- How long the store may take. -/
  timeoutMilliseconds : Option UInt32 := none
  deriving DecidableEq, Repr

namespace ListKeys

/-- A part of the keys, as texts. -/
structure Chunk where
  keys : List String
  done : Bool
  deriving DecidableEq, Repr

/-- The types of a listing. -/
abbrev signature : Signature := ⟨Chunk, List Location, Namespace⟩

/-- The body of the request. -/
def body (c : ListKeys) : Value :=
  .map (Request.namespaceEntries c.within ++
    Value.entry? "timeoutMs" Request.number c.timeoutMilliseconds)

/-- The request. -/
def request (c : ListKeys) : Except Cause Message := do
  Request.checkNamespace c.within
  Payload.encode Code.listKeys (.ok c.body)

/-- Reads the text of a key, in a message with the given code. -/
def decodeKey (code : UInt8) (octets : Bytes) : Outcome String :=
  match Utf8.decode octets with
  | .ok key => .ok key
  | .error e => .error (.decode code s!"key is not UTF-8: {e.message}")

/-- Reads a reply, all of whose keys have to be texts. -/
def decode (m : Message) : Outcome Chunk := do
  let reply ← Payload.decode ListKeysReply.record.read m
  let keys ← reply.keys.mapM (decodeKey m.code)
  return ⟨keys, reply.done⟩

/-- The locations of the keys in a part. -/
def locations (ns : Namespace) (chunk : Chunk) : List Location := chunk.keys.map (⟨ns, ·⟩)

/-- The kind of operation that a listing is, with its request. -/
def kind (ns : Namespace) (request : Message) : StreamKind signature Location where
  query := ns
  request := request
  expects := Code.keysListed
  decode := decode
  isFinal chunk := chunk.done
  convert chunks := .ok (chunks.flatMap (locations ns))
  items := locations ns
  itemOctets := 80

/-- The kind of operation that the command makes. -/
def build (c : ListKeys) : Except Cause (StreamKind signature Location) :=
  c.request.map (kind c.within)

/-- The command as it is dispatched. -/
def command (c : ListKeys) : Command signature := .ofKind c.within (c.build.map (·.toKind))

/-- The command as a stream. -/
def stream (c : ListKeys) (config : StreamConfig) :
    Except ClientError (Stream signature Location) :=
  Stream.make c.build config

end ListKeys

end StoreClient
