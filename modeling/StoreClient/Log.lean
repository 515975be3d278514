import StoreClient.Operation.Phase
import StoreClient.Batch.Event

/-!
# Log

What the client logs, as a type of events, and the record that each event makes: a level, a text,
and named fields.
-/

namespace StoreClient.Log

/-- How serious an event is. -/
inductive Level where
  | debug
  | warn
  deriving DecidableEq, Repr

/-- The name of a level. -/
def Level.name : Level → String
  | debug => "DEBUG"
  | warn => "WARN"

/-- The value of a field. -/
inductive FieldValue where
  | number (n : Nat)
  | text (s : String)
  deriving DecidableEq, Repr

/-- One line of the log. -/
structure Record where
  level : Level
  text : String
  fields : List (String × FieldValue)
  deriving DecidableEq, Repr

/-- Something worth logging. -/
inductive Event where
  /-- A reply reached an operation that was done. -/
  | lateReply (code : UInt8) (phase : Phase)
  /-- An operation was failed while a reply to it was being processed. -/
  | overtaken (code : UInt8)
  /-- A reply, or its processing, failed an operation. -/
  | operationFailed (code : UInt8) (cause : Cause)
  /-- A failure was reported to an operation that was done. -/
  | lateFailure (cause : Cause)
  /-- The items of a reply have no consumer any more. -/
  | consumerGone
  /-- An operation was done before all items of a reply were queued. -/
  | queueClosed
  /-- A batch cannot be dispatched for want of a runtime. -/
  | noRuntime (batch total : Nat)
  /-- An event of a batch, from an observer that logs them. -/
  | batch (e : Batch.Event)
  deriving DecidableEq, Repr

/-- The record of an event of a batch. -/
def ofBatchEvent : Batch.Event → Record
  | .started b total limit => ⟨.debug, "batch started",
      [("batch_id", .number b), ("total", .number total), ("max_in_flight", .number limit)]⟩
  | .dispatched b index inFlight => ⟨.debug, "operation dispatched",
      [("batch_id", .number b), ("index", .number index), ("in_flight", .number inFlight)]⟩
  | .itemDone b index none => ⟨.debug, "operation succeeded",
      [("batch_id", .number b), ("index", .number index)]⟩
  | .itemDone b index (some c) => ⟨.debug, "operation failed",
      [("batch_id", .number b), ("index", .number index), ("cause", .text c.message)]⟩
  | .completed b collected => ⟨.debug, "batch complete",
      [("batch_id", .number b), ("collected", .number collected)]⟩
  | .interrupted b dispatched total => ⟨.warn, "batch dispatch interrupted",
      [("batch_id", .number b), ("dispatched", .number dispatched), ("total", .number total)]⟩

/-- The record of an event. -/
def Event.record : Event → Record
  | lateReply code phase => ⟨.warn, "reply arrived after operation completed; ignoring",
      [("code", .number code.toNat), ("state", .text phase.name)]⟩
  | overtaken code => ⟨.debug, "operation failed while reply was processed",
      [("code", .number code.toNat)]⟩
  | operationFailed code cause => ⟨.debug, "operation failed",
      [("code", .number code.toNat), ("cause", .text cause.message)]⟩
  | lateFailure cause => ⟨.debug, "failure reported after completion; ignoring",
      [("cause", .text cause.message)]⟩
  | consumerGone => ⟨.debug, "streaming consumer went away; discarding items", []⟩
  | queueClosed => ⟨.debug, "operation completed while enqueueing; discarding items", []⟩
  | noRuntime b total => ⟨.warn, "no tokio runtime to dispatch on",
      [("batch_id", .number b), ("total", .number total)]⟩
  | batch e => ofBatchEvent e

/-! ## The form of the log -/

/-- How lines of the log are laid out. -/
inductive Layout where
  | json
  | pretty
  deriving DecidableEq, Repr

namespace Layout

/-- The name of a layout. -/
def name : Layout → String
  | json => "Json"
  | pretty => "Pretty"

/-- The layout where none is chosen. -/
def standard : Layout := pretty

end Layout

/-- The filter that applies where none is set. -/
def defaultFilter : String := "info"

end StoreClient.Log
