import StoreClient.Command
import StoreClient.Command.Request
import StoreClient.Reply

/-!
# Storing a value

One request, one reply, whose payload does not matter.
-/

namespace StoreClient

/-- The command to store a value at a location. -/
structure Store where
  location : Location
  value : Bytes
  contentType : Option String := none
  /-- The causal context of an earlier fetch. -/
  vclock : Option Bytes := none
  /-- How many replicas have to take the value, instead of the default of the bucket. -/
  w : Option UInt32 := none
  deriving DecidableEq, Repr

namespace Store

/-- The types of a store. -/
abbrev signature : Signature := ⟨Unit, Unit, Location⟩

/-- The body of the request. -/
def body (c : Store) : Value :=
  .map (Request.locationEntries c.location ++ [("value", .binary c.value)] ++
    Value.entry? "contentType" .text c.contentType ++ Value.entry? "vclock" .binary c.vclock ++
    Value.entry? "w" Request.number c.w)

/-- The request. -/
def request (c : Store) : Except Cause Message := do
  Request.checkLocation c.location
  Payload.encode Code.store (.ok c.body)

/-- The kind of operation that a store is, with its request. -/
def kind (location : Location) (request : Message) : Kind signature where
  query := location
  request := request
  expects := Code.stored
  decode _ := .ok ()
  isFinal _ := true
  convert _ := .ok ()

/-- The command as it is dispatched. -/
def command (c : Store) : Command signature := .ofKind c.location (c.request.map (kind c.location))

end Store

end StoreClient
