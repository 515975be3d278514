import StoreClient.Command
import StoreClient.Command.Request
import StoreClient.Reply

/-!
# Fetching a value

One request, one reply. A reply without a payload says that there is no value.
-/

namespace StoreClient

/-- The command to fetch the value at a location. -/
structure Fetch where
  location : Location
  /-- How many replicas have to answer, instead of the default of the bucket. -/
  r : Option UInt32 := none
  /-- Whether the answer that there is no value counts as one of them. -/
  notFoundOk : Bool := true
  deriving DecidableEq, Repr

/-- Whether a fetch found no value. -/
def FetchReply.isNotFound (r : FetchReply) : Bool := r.value.isNone

namespace Fetch

/-- The types of a fetch. -/
abbrev signature : Signature := ⟨FetchReply, FetchReply, Location⟩

/-- The body of the request. -/
def body (c : Fetch) : Value :=
  .map (Request.locationEntries c.location ++ Value.entry? "r" Request.number c.r ++
    [("notFoundOk", .bool c.notFoundOk)])

/-- The request. -/
def request (c : Fetch) : Except Cause Message := do
  Request.checkLocation c.location
  Payload.encode Code.fetch (.ok c.body)

/-- Reads a reply. -/
def decode (m : Message) : Outcome FetchReply :=
  if m.payload.isEmpty then .ok .notFound else Payload.decode FetchReply.record.read m

/-- The last reply counts. -/
def convert (replies : List FetchReply) : Outcome FetchReply :=
  .ok (replies.getLast?.getD .notFound)

/-- The kind of operation that a fetch is, with its request. -/
def kind (location : Location) (request : Message) : Kind signature where
  query := location
  request := request
  expects := Code.fetched
  decode := decode
  isFinal _ := true
  convert := convert

/-- The command as it is dispatched. -/
def command (c : Fetch) : Command signature := .ofKind c.location (c.request.map (kind c.location))

end Fetch

end StoreClient
