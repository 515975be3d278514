import StoreClient.Log
import StoreClient.Message

/-!
# Notices

Everything that becomes visible outside while operations and batches go on, in the order in which it
happens: lines of the log, reports of listeners, events of batches, and requests handed to the
transport.
-/

namespace StoreClient

/-- Something that becomes visible. -/
inductive Notice where
  | logged (e : Log.Event)
  /-- A listener reported. -/
  | heard (report : String)
  /-- An event of a batch, for its observer. -/
  | observed (e : Batch.Event)
  /-- The transport was given its request number `ordinal`. -/
  | submitted (ordinal : Nat) (request : Message)
  deriving DecidableEq, Repr

end StoreClient
