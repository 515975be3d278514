import StoreClient.Cause

/-!
# Events of a batch

What an observer of batches is told. Every event carries the number of its batch.
-/

namespace StoreClient.Batch

/-- An event of the batch with number `batch`. -/
inductive Event where
  /-- The batch was accepted, with this many commands and this limit. -/
  | started (batch total limit : Nat)
  /-- The command at `index` is about to be submitted; with it, `inFlight` are outstanding. -/
  | dispatched (batch index inFlight : Nat)
  /-- The item at `index` is done, with a cause if it failed. -/
  | itemDone (batch index : Nat) (cause : Option Cause)
  /-- All items are done, and this many were collected. -/
  | completed (batch collected : Nat)
  /-- The batch failed after this many of its commands. -/
  | interrupted (batch dispatched total : Nat)
  deriving DecidableEq, Repr

/-- The number of the batch that an event belongs to. -/
def Event.batch : Event → Nat
  | started b _ _ => b
  | dispatched b _ _ => b
  | itemDone b _ _ => b
  | completed b _ => b
  | interrupted b _ _ => b

end StoreClient.Batch
