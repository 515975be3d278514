/-!
# Phases of an operation

An operation is built, handed to a transport, and then receives replies until it is done.
-/

namespace StoreClient

/-- How far an operation has come. -/
inductive Phase where
  /-- Built, and not yet handed to a transport. -/
  | pending
  /-- Handed to a transport, and not answered. -/
  | submitted
  /-- Answered at least once, and not for the last time. -/
  | awaitingMore
  | done (success : Bool)
  deriving DecidableEq, Repr

namespace Phase

/-- Whether nothing more will happen. -/
def isDone : Phase → Bool
  | done _ => true
  | _ => false

/-- The name of a phase in a log. -/
def name : Phase → String
  | pending => "Pending"
  | submitted => "Submitted"
  | awaitingMore => "AwaitingMore"
  | done true => "Done(Success)"
  | done false => "Done(Failure)"

end Phase

end StoreClient
