import StoreClient.Config
import StoreClient.Operation

/-!
# Streams

A stream is an operation whose replies also yield items. The items go into a bounded queue while the
operation goes on, and one consumer reads them from there.

What happens to a stream is a sequence of moves, in any order; `perform` makes one. A move that is
not possible has no effect. The moves of one call follow each other, and those of other calls come
between them.

## The producer

Replies are fed one at a time. A reply is processed like that of any operation, and between
examining and settling it, its items are queued:

* `take` looks at the phase, and the `Delivery` of the reply begins;
* `examine` decodes the reply;
* `share` makes the items of the reply, and looks whether the queue is open; the delivery has its
  own share of the producing end from then on;
* `push` queues one item, if there is room; `discard` gives up the others if the queue was closed or
  has no consumer, and `stall` if there was no room for too long;
* `settle` looks at the phase again, and the operation takes the reply or fails.

The call that makes the operation done, be it `settle` or `fail`, completes the handle next
(`publish`), whose listeners run, and then closes the queue (`close`).

All places of a queue are reserved when it is made, so there are capacities for which there can be
no queue.

## The consumer

The results of a stream are taken from it once, and may be shared; whoever comes first claims the
reader, which is the only consumer of the queue. If the results and all their shares are dropped, or
the reader is, the items have no consumer, and they are discarded.

A reader that finds the queue empty waits until there is an item, or the queue has no producing end
any more, or its time is over. What it was told is decided then.
-/

namespace StoreClient

/-! ## Errors of consumers -/

/-- Why a consumer got no item. -/
inductive StreamError where
  /-- Nothing arrived for as long as the consumer would wait. -/
  | pollTimeout (milliseconds : UInt64)
  /-- The reader was claimed before. -/
  | alreadyConsumed
  /-- No item was made ready. -/
  | noItemReady
  /-- The operation failed. -/
  | failed (c : Cause)
  deriving DecidableEq, Repr

/-- The text of an error. -/
def StreamError.message : StreamError → String
  | pollTimeout ms => s!"no chunk arrived within {ms}ms"
  | alreadyConsumed => "streaming results were already consumed"
  | noItemReady => "no item is ready; call has_next() first"
  | failed c => s!"streaming operation failed: {c.message}"

/-! ## The places of a queue -/

/-- Why there can be no queue of some capacity. -/
inductive QueueError where
  /-- Its places cannot be numbered. -/
  | tooManyPlaces
  /-- Its places take more octets than can be addressed. -/
  | tooManyOctets
  deriving DecidableEq, Repr

/-- The text of an error. -/
def QueueError.message : QueueError → String
  | tooManyPlaces => "bounded channel capacity is too large"
  | tooManyOctets => "capacity overflow"

/-- Reserves the places of a queue. The number of a place has 64 bits, of which two are taken for
other things, and octets are addressed with 63 bits. -/
def reservePlaces (capacity octetsEach : Nat) : Except QueueError Unit :=
  if UInt64.size / 4 ≤ capacity then .error .tooManyPlaces
  else if UInt64.size / 2 ≤ capacity * octetsEach then .error .tooManyOctets
  else .ok ()

/-! ## State -/

/-- A kind of operation whose replies yield items. -/
structure StreamKind (σ : Signature) (ι : Type) extends Kind σ where
  /-- The items of a reply, in the order in which they are consumed. -/
  items : σ.Reply → List ι
  /-- The failures that are reported to the operation while the items are made. -/
  interruptions : σ.Reply → List Cause := fun _ => []
  /-- How many octets an item takes in a queue. -/
  itemOctets : Nat

/-- The consumer of the queue. -/
structure Reader (ι : Type) where
  /-- How long the reader waits for an item. -/
  timeout : Duration
  /-- An item that was made ready and not yet taken. -/
  peeked : Option ι := none
  /-- Whether the end of the stream was reported as a failure. -/
  failureReported : Bool := false

/-- Where the consuming end of the queue is. -/
inductive Claim (ι : Type) where
  /-- Still with the results. -/
  | unclaimed
  | reading (r : Reader ι)
  /-- The reader was dropped. -/
  | released

/-- How far the processing of a reply has come. -/
inductive Delivery (σ : Signature) (ι : Type) where
  /-- The operation was not done. -/
  | received (m : Message)
  | decoded (code : UInt8) (reply : σ.Reply)
  /-- Some items are not yet queued. -/
  | queueing (code : UInt8) (reply : σ.Reply) (rest : List ι)
  /-- The operation takes the reply next, or fails. -/
  | settling (code : UInt8) (step : Outcome σ.Reply)

/-- The delivery of a reply of which some items are not yet queued; without any it is settled next.
-/
def Delivery.ofRest {σ : Signature} {ι : Type} (code : UInt8) (reply : σ.Reply) :
    List ι → Delivery σ ι
  | [] => .settling code (.ok reply)
  | i :: rest => .queueing code reply (i :: rest)

/-- What is left to do for the call that made an operation done. -/
inductive Completion (α : Type) where
  | publishing (o : Outcome α)
  | closing

/-- An operation with a queue of items. -/
structure Stream (σ : Signature) (ι : Type) where
  operation : Operation σ
  items : σ.Reply → List ι
  interruptions : σ.Reply → List Cause
  capacity : Nat
  /-- How long the producer waits for room, and a reader for items. -/
  patience : Duration
  queue : List ι := []
  closed : Bool := false
  /-- Whether the operation was given up; its handle stays. -/
  dropped : Bool := false
  /-- The reply that is being processed. -/
  delivery : Option (Delivery σ ι) := none
  completion : Option (Completion σ.Output) := none
  /-- Whether the results are still with the operation. -/
  holdsResults : Bool := true
  /-- The results that were taken and their copies, in order, and which of them are alive. -/
  shares : List Bool := []
  claim : Claim ι := .unclaimed

namespace Stream

variable {σ : Signature} {ι : Type}

/-- A new stream. -/
def ofKind (k : StreamKind σ ι) (c : StreamConfig) : Stream σ ι where
  operation := .ofKind k.toKind
  items := k.items
  interruptions := k.interruptions
  capacity := c.queueCapacity.toNat
  patience := c.pollTimeout

/-- Whether the results with number `n` are alive. -/
def isAlive (s : Stream σ ι) (n : Nat) : Bool := s.shares[n]?.getD false

/-- Whether the consuming end of the queue is there. -/
def hasConsumer (s : Stream σ ι) : Bool :=
  match s.claim with
  | .unclaimed => (s.holdsResults && !s.dropped) || s.shares.any id
  | .reading _ => true
  | .released => false

/-- Whether a delivery has a share of the producing end of the queue. -/
def isQueueing (s : Stream σ ι) : Bool :=
  match s.delivery with
  | some (.queueing _ _ _) => true
  | _ => false

/-- Whether the producing end of the queue is there. -/
def hasProducer (s : Stream σ ι) : Bool := (!s.closed && !s.dropped) || s.isQueueing

/-! ## Events -/

/-- What can be seen of a move. -/
inductive Event (σ : Signature) (ι : Type) where
  | noticed (n : Notice)
  | decoded (reply : σ.Reply)
  | queued (i : ι)
  /-- A reply has been processed. -/
  | accepted (a : Accepted)
  /-- There are results with a new number. -/
  | shared (n : Nat)
  | claimed (answer : Except StreamError Unit)
  -- what a reader is told
  | ready (answer : Except StreamError Bool)
  | item (answer : Except StreamError ι)
  | next (answer : Option (Except StreamError ι))
  | waits (d : Duration)

/-! ## Producing -/

/-- Marks the operation as handed to a transport. -/
def submit (s : Stream σ ι) : Stream σ ι × List (Event σ ι) :=
  if s.dropped then (s, []) else ({ s with operation := s.operation.submit }, [])

/-- Registers a listener on the handle. -/
def listen (s : Stream σ ι) (l : Listener) : Stream σ ι × List (Event σ ι) :=
  let (op, notices) := s.operation.listen l
  ({ s with operation := op }, notices.map .noticed)

/-- Begins to process a reply, unless another is being processed. -/
def take (s : Stream σ ι) (m : Message) : Stream σ ι × List (Event σ ι) :=
  if s.dropped || s.delivery.isSome then (s, [])
  else if s.operation.isDone then
    (s, [.noticed (.logged (.lateReply m.code s.operation.phase)), .accepted .ignored])
  else ({ s with delivery := some (.received m) }, [])

/-- Decodes a reply. -/
def examine (s : Stream σ ι) : Stream σ ι × List (Event σ ι) :=
  match s.delivery with
  | some (.received m) => match s.operation.examine m with
    | .ok reply => ({ s with delivery := some (.decoded m.code reply) }, [.decoded reply])
    | .error c => ({ s with delivery := some (.settling m.code (.error c)) }, [])
  | _ => (s, [])

/-- Makes the items of a reply. A reply that finds the queue closed is settled without touching it.
-/
def share (s : Stream σ ι) : Stream σ ι × List (Event σ ι) :=
  match s.delivery with
  | some (.decoded code reply) =>
    let rest := if s.closed then [] else s.items reply
    ({ s with delivery := some (.ofRest code reply rest) }, [])
  | _ => (s, [])

/-- Queues an item if there is room. -/
def push (s : Stream σ ι) : Stream σ ι × List (Event σ ι) :=
  match s.delivery with
  | some (.queueing code reply (i :: rest)) =>
    if s.hasConsumer && s.queue.length < s.capacity then
      ({ s with queue := s.queue ++ [i], delivery := some (.ofRest code reply rest) }, [.queued i])
    else (s, [])
  | _ => (s, [])

/-- Gives up the items of a reply that nobody will read. -/
def discard (s : Stream σ ι) : Stream σ ι × List (Event σ ι) :=
  match s.delivery with
  | some (.queueing code reply _) =>
    let settling := { s with delivery := some (.settling code (.ok reply)) }
    if s.closed then (settling, [.noticed (.logged .queueClosed)])
    else if !s.hasConsumer then (settling, [.noticed (.logged .consumerGone)])
    else (s, [])
  | _ => (s, [])

/-- Gives up the items of a reply for which no room came. -/
def stall (s : Stream σ ι) : Stream σ ι × List (Event σ ι) :=
  match s.delivery with
  | some (.queueing code _ _) =>
    if s.hasConsumer && s.capacity ≤ s.queue.length then
      let c := Cause.consumerStalled s.patience.milliseconds
      ({ s with delivery := some (.settling code (.error c)) }, [])
    else (s, [])
  | _ => (s, [])

/-- Settles a reply. -/
def settle (s : Stream σ ι) : Stream σ ι × List (Event σ ι) :=
  match s.delivery with
  | some (.settling code step) => match s.operation.judge code step with
    | (op, accepted, o, notices) =>
      let completion := match o with
        | some o => some (.publishing o)
        | none => s.completion
      ({ s with operation := op, delivery := none, completion := completion },
        notices.map .noticed ++ [.accepted accepted])
  | _ => (s, [])

/-- Makes the operation fail, unless it is done. -/
def fail (s : Stream σ ι) (c : Cause) : Stream σ ι × List (Event σ ι) :=
  if s.dropped then (s, [])
  else match s.operation.condemn c with
    | (op, true, notices) =>
      ({ s with operation := op, completion := some (.publishing (.error c)) },
        notices.map .noticed)
    | (op, false, notices) => ({ s with operation := op }, notices.map .noticed)

/-- Completes the handle of an operation that was made done. -/
def publish (s : Stream σ ι) : Stream σ ι × List (Event σ ι) :=
  match s.completion with
  | some (.publishing o) =>
    let (op, notices) := s.operation.publish o
    ({ s with operation := op, completion := some .closing }, notices.map .noticed)
  | _ => (s, [])

/-- Closes the queue when the handle is complete: nobody gets a share of its producing end any more.
-/
def close (s : Stream σ ι) : Stream σ ι × List (Event σ ι) :=
  match s.completion with
  | some .closing => ({ s with closed := true, completion := none }, [])
  | _ => (s, [])

/-- Gives the operation up, unless one of its calls goes on. -/
def drop (s : Stream σ ι) : Stream σ ι × List (Event σ ι) :=
  if s.delivery.isNone && s.completion.isNone then ({ s with dropped := true }, []) else (s, [])

/-! ## Sharing the results -/

/-- Takes the results from the operation, once. -/
def takeResults (s : Stream σ ι) : Stream σ ι × List (Event σ ι) :=
  if s.holdsResults && !s.dropped then
    ({ s with holdsResults := false, shares := s.shares ++ [true] }, [.shared s.shares.length])
  else (s, [])

/-- Copies results that are alive. -/
def copyResults (s : Stream σ ι) (n : Nat) : Stream σ ι × List (Event σ ι) :=
  if s.isAlive n then
    ({ s with shares := s.shares ++ [true] }, [.shared s.shares.length])
  else (s, [])

/-- Drops results. -/
def dropResults (s : Stream σ ι) (n : Nat) : Stream σ ι × List (Event σ ι) :=
  ({ s with shares := s.shares.set n false }, [])

/-- Claims the reader, which only one share of the results can. -/
def claimReader (s : Stream σ ι) (n : Nat) : Stream σ ι × List (Event σ ι) :=
  if s.isAlive n then match s.claim with
    | .unclaimed => ({ s with claim := .reading { timeout := s.patience } }, [.claimed (.ok ())])
    | _ => (s, [.claimed (.error .alreadyConsumed)])
  else (s, [])

/-! ## Consuming -/

/-- Why the items of a stream end: the failure of the operation, or that it was dropped. -/
def endCause? (s : Stream σ ι) : Option Cause :=
  if s.operation.handle.isDone then s.operation.handle.cause?
  else some (.transport "operation dropped before completion")

/-- What a reader is told at the end of the queue: the failure of the operation, once, and otherwise
that there are no more items. -/
def endOfStream (s : Stream σ ι) (r : Reader ι) : Reader ι × Except StreamError Bool :=
  if r.failureReported then (r, .ok false)
  else match s.endCause? with
    | some c => ({ r with failureReported := true }, .error (.failed c))
    | none => (r, .ok false)

/-- Makes the next item ready, if there is one, and tells whether one is. -/
def hasNext (s : Stream σ ι) (r : Reader ι) : Stream σ ι × Reader ι × Except StreamError Bool :=
  match r.peeked, s.queue with
  | some _, _ => (s, r, .ok true)
  | none, i :: rest => ({ s with queue := rest }, { r with peeked := some i }, .ok true)
  | none, [] =>
    if s.hasProducer then (s, r, .error (.pollTimeout r.timeout.milliseconds))
    else
      let (r, answer) := s.endOfStream r
      (s, r, answer)

/-- Takes the item that was made ready. -/
def nextItem (r : Reader ι) : Reader ι × Except StreamError ι :=
  match r.peeked with
  | some i => ({ r with peeked := none }, .ok i)
  | none => (r, .error .noItemReady)

/-- Makes the next item ready and takes it; nothing at the end. -/
def next (s : Stream σ ι) (r : Reader ι) :
    Stream σ ι × Reader ι × Option (Except StreamError ι) :=
  match s.hasNext r with
  | (s, r, .ok true) =>
    let (r, item) := nextItem r
    (s, r, some item)
  | (s, r, .ok false) => (s, r, none)
  | (s, r, .error e) => (s, r, some (.error e))

/-- What a reader can be asked. -/
inductive Reading where
  | hasNext
  | nextItem
  | next
  | setTimeout (d : Duration)
  | release

/-- Asks a reader. -/
def ask (s : Stream σ ι) (r : Reader ι) : Reading → Stream σ ι × List (Event σ ι)
  | .hasNext =>
    let (s, r, answer) := s.hasNext r
    ({ s with claim := .reading r }, [.ready answer])
  | .nextItem =>
    let (r, answer) := nextItem r
    ({ s with claim := .reading r }, [.item answer])
  | .next =>
    let (s, r, answer) := s.next r
    ({ s with claim := .reading r }, [.next answer])
  | .setTimeout d => ({ s with claim := .reading { r with timeout := d } }, [.waits d])
  | .release => ({ s with claim := .released }, [])

/-- Asks the reader, if there is one. -/
def read (s : Stream σ ι) (what : Reading) : Stream σ ι × List (Event σ ι) :=
  match s.claim with
  | .reading r => s.ask r what
  | _ => (s, [])

/-! ## Moves -/

/-- Something that can happen to a stream. -/
inductive Move where
  -- the calls of the operation
  | submit
  | take (m : Message)
  | examine
  | share
  | push
  | discard
  | stall
  | settle
  | fail (c : Cause)
  | publish
  | close
  | drop
  -- the handle
  | listen (l : Listener)
  -- the results
  | takeResults
  | copyResults (n : Nat)
  | dropResults (n : Nat)
  | claim (n : Nat)
  -- the reader
  | read (r : Reading)

/-- Makes a move. -/
def perform (s : Stream σ ι) : Move → Stream σ ι × List (Event σ ι)
  | .submit => s.submit
  | .take m => s.take m
  | .examine => s.examine
  | .share => s.share
  | .push => s.push
  | .discard => s.discard
  | .stall => s.stall
  | .settle => s.settle
  | .fail c => s.fail c
  | .publish => s.publish
  | .close => s.close
  | .drop => s.drop
  | .listen l => s.listen l
  | .takeResults => s.takeResults
  | .copyResults n => s.copyResults n
  | .dropResults n => s.dropResults n
  | .claim n => s.claimReader n
  | .read what => s.read what

/-- Makes moves one after another. -/
def run (s : Stream σ ι) : List Move → Stream σ ι × List (Event σ ι)
  | [] => (s, [])
  | m :: ms =>
    let (s, events) := s.perform m
    let (s, later) := s.run ms
    (s, events ++ later)

end Stream

end StoreClient
