/-!
# Why an operation failed

`Cause` lists the ways in which one operation, or the dispatch of a whole batch, can fail. The texts
are what a caller reads, so they are part of the interface.
-/

namespace StoreClient

/-- Why an operation failed. -/
inductive Cause where
  /-- The reply with message code `code` could not be read. -/
  | decode (code : UInt8) (reason : String)
  /-- The reply carries a message code other than the expected one. -/
  | protocolMismatch (expected actual : UInt8)
  /-- The store answered with an error text. -/
  | server (message : String)
  /-- The connection failed. -/
  | transport (reason : String)
  /-- The queue of a stream stayed full for as long as the producer would wait. -/
  | consumerStalled (milliseconds : UInt64)
  /-- The request could not be made. -/
  | buildFailed (reason : String)
  /-- A batch stopped after `dispatched` of its `total` commands. -/
  | dispatchInterrupted (dispatched total : Nat)
  deriving DecidableEq, Repr, Inhabited

namespace Cause

/-- The text of a cause. -/
def message : Cause → String
  | decode code reason => s!"failed to decode response message (code {code}): {reason}"
  | protocolMismatch expected actual =>
    s!"protocol mismatch: expected response code {expected}, got {actual}"
  | server message => s!"server error: {message}"
  | transport reason => s!"transport failure: {reason}"
  | consumerStalled ms => s!"stream consumer stalled: queue stayed full for {ms}ms"
  | buildFailed reason => s!"could not build operation: {reason}"
  | dispatchInterrupted dispatched total =>
    s!"dispatch interrupted after {dispatched} of {total} operations"

/-- Whether the cause concerns a whole batch and not a single operation. -/
def isBatchLevel : Cause → Bool
  | dispatchInterrupted .. => true
  | _ => false

end Cause

/-- How an operation ended: with a value or with the cause of its failure. -/
abbrev Outcome (α : Type) := Except Cause α

end StoreClient
