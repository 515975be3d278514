import StoreClient.Handle
import StoreClient.Listener
import StoreClient.Notice

/-!
# Operations

An operation sends one request and takes replies until it is done. What is sent and how replies are
read is its `Kind`; how far it has come, its `Phase`. The step into the phase *done* completes the
handle of the operation, and nothing else does.

## Processing a reply

`receive` is made of three steps, between which other calls may come:

* the phase is looked at: an operation that is done ignores the reply;
* the reply is examined, and a stream queues its items;
* `settle` looks at the phase again, and the operation takes the reply or fails.

The step into the phase *done* and the completion of the handle are two steps as well: `judge` and
`condemn` make the first, and `publish` the second.
-/

namespace StoreClient

/-! ## Kinds -/

/-- The types that belong to a kind of operation: one decoded reply, the value of the operation, and
what identifies the request. -/
structure Signature where
  Reply : Type
  Output : Type
  Query : Type

/-- What an operation sends and how it reads replies. -/
structure Kind (σ : Signature) where
  query : σ.Query
  request : Message
  /-- The code that every reply has to carry. -/
  expects : UInt8
  /-- Reads a reply that carries the expected code. -/
  decode : Message → Outcome σ.Reply
  /-- Whether a reply is the last one. -/
  isFinal : σ.Reply → Bool
  /-- Makes the value of all replies, in the order of their arrival. -/
  convert : List σ.Reply → Outcome σ.Output

/-! ## Operations -/

/-- One request, the replies to it so far, and the handle of its outcome. -/
structure Operation (σ : Signature) where
  kind : Kind σ
  phase : Phase := .pending
  /-- The replies taken, in the order of their arrival. -/
  replies : List σ.Reply := []
  handle : Handle σ.Output Listener := {}

/-- What became of a reply. -/
inductive Accepted where
  /-- It was taken, and more are expected. -/
  | pending
  /-- It was the one that made the operation done. -/
  | completed
  /-- The operation was done without it. -/
  | ignored
  deriving DecidableEq, Repr

/-- Whether the operation is done after the reply. -/
def Accepted.isFinished : Accepted → Bool
  | pending => false
  | _ => true

/-- The reports of listeners that have to run now. -/
def Notice.ofListeners (due : List Listener) (success : Bool) : List Notice :=
  (due.flatMap (·.run success)).map .heard

namespace Operation

variable {σ : Signature}

/-- A new operation. -/
def ofKind (k : Kind σ) : Operation σ := { kind := k }

/-- Whether the operation is done. -/
def isDone (op : Operation σ) : Bool := op.phase.isDone

/-- Marks the operation as handed to a transport. -/
def submit (op : Operation σ) : Operation σ :=
  match op.phase with
  | .pending => { op with phase := .submitted }
  | _ => op

/-- Registers a listener on the handle. -/
def listen (op : Operation σ) (l : Listener) : Operation σ × List Notice :=
  let (handle, due) := op.handle.listen l
  ({ op with handle := handle }, Notice.ofListeners due handle.isSuccess)

/-- Completes the handle with the outcome of the operation. -/
def publish (op : Operation σ) (o : Outcome σ.Output) : Operation σ × List Notice :=
  match op.handle.complete? o with
  | some (handle, due) => ({ op with handle := handle }, Notice.ofListeners due o.isOk)
  | none => (op, [])

/-- Reads a reply: an error response fails the operation, and so does any code but the expected. -/
def examine (op : Operation σ) (m : Message) : Outcome σ.Reply :=
  if m.isErrorResponse then .error (.server m.errorText)
  else if m.code ≠ op.kind.expects then .error (.protocolMismatch op.kind.expects m.code)
  else op.kind.decode m

/-- Takes a decoded reply to the message with the given code, or fails with the cause. A last reply
is converted together with those before it. If this makes the operation done, its handle is still to
be completed, with the outcome that is given. -/
def judge (op : Operation σ) (code : UInt8) (step : Outcome σ.Reply) :
    Operation σ × Accepted × Option (Outcome σ.Output) × List Notice :=
  if op.isDone then (op, .ignored, none, [.logged (.overtaken code)])
  else match step with
    | .error c =>
      ({ op with phase := .done false }, .completed, some (.error c),
        [.logged (.operationFailed code c)])
    | .ok reply =>
      let op := { op with replies := op.replies ++ [reply] }
      if op.kind.isFinal reply then
        let o := op.kind.convert op.replies
        let failure := match o with
          | .ok _ => []
          | .error c => [Notice.logged (.operationFailed code c)]
        ({ op with phase := .done o.isOk }, .completed, some o, failure)
      else ({ op with phase := .awaitingMore }, .pending, none, [])

/-- Ends the processing of a reply with the given code. -/
def settle (op : Operation σ) (code : UInt8) (step : Outcome σ.Reply) :
    Operation σ × Accepted × List Notice :=
  match op.judge code step with
  | (op, accepted, some o, notices) =>
    let (op, later) := op.publish o
    (op, accepted, notices ++ later)
  | (op, accepted, none, notices) => (op, accepted, notices)

/-- Feeds a reply. -/
def receive (op : Operation σ) (m : Message) : Operation σ × Accepted × List Notice :=
  if op.isDone then (op, .ignored, [.logged (.lateReply m.code op.phase)])
  else op.settle m.code (op.examine m)

/-- Makes the operation done, unless it is, with a failure that its handle is still to be completed
with; tells whether it did. -/
def condemn (op : Operation σ) (c : Cause) : Operation σ × Bool × List Notice :=
  if op.isDone then (op, false, [.logged (.lateFailure c)])
  else ({ op with phase := .done false }, true, [])

/-- Fails the operation, unless it is done; tells whether it did. -/
def fail (op : Operation σ) (c : Cause) : Operation σ × Bool × List Notice :=
  match op.condemn c with
  | (op, true, notices) =>
    let (op, later) := op.publish (.error c)
    (op, true, notices ++ later)
  | (op, false, notices) => (op, false, notices)

end Operation

end StoreClient
