import StoreClient.Command
import StoreClient.Command.Request
import StoreClient.Reply

/-!
# Deleting a value

One request, one reply, whose payload does not matter.
-/

namespace StoreClient

/-- The command to delete the value at a location. -/
structure Delete where
  location : Location
  /-- The causal context of an earlier fetch. -/
  vclock : Option Bytes := none
  deriving DecidableEq, Repr

namespace Delete

/-- The types of a delete. -/
abbrev signature : Signature := ⟨Unit, Unit, Location⟩

/-- The body of the request. -/
def body (c : Delete) : Value :=
  .map (Request.locationEntries c.location ++ Value.entry? "vclock" .binary c.vclock)

/-- The request. -/
def request (c : Delete) : Except Cause Message := do
  Request.checkLocation c.location
  Payload.encode Code.delete (.ok c.body)

/-- The kind of operation that a delete is, with its request. -/
def kind (location : Location) (request : Message) : Kind signature where
  query := location
  request := request
  expects := Code.deleted
  decode _ := .ok ()
  isFinal _ := true
  convert _ := .ok ()

/-- The command as it is dispatched. -/
def command (c : Delete) : Command signature := .ofKind c.location (c.request.map (kind c.location))

end Delete

end StoreClient
