import StoreClient.Command
import StoreClient.Permits
import StoreClient.Transport

/-!
# Batches

A batch is a list of commands whose operations are submitted in order, at most `limit` of them
outstanding at once. Items are collected as their listeners run; the batch is done when all of them
are. An item that fails, or whose request cannot be made, does not fail the batch. The batch fails
only when its dispatching is interrupted.

## Moves

Dispatching, the transport and the listeners of the items go on side by side. What one of them does
undisturbed is a *move*, and between two moves of one of them any others may come:

* `advance` lets dispatching go on. When it is `ready` for the next command, it sees that all
  dispatching is halted, or asks for a permit. With a permit it makes the operation of the command
  and hands it to the transport. When it is `submitting`, the transport has taken the operation, and
  the listener of the item is registered.
* `answer` gives an answer of the transport to an operation, also to one that is being submitted. If
  this makes the item done, its listener is due.
* `proceed` lets the listener of an item take its next step. It tells the observer, collects the
  item unless the batch was interrupted, gives the permit back, and counts the item. The last item
  that is counted completes the batch.
* `abandon` is for dispatching that is given up from outside. It takes effect only between two
  commands.

An item that is done before its listener is registered has its listener run by dispatching, which is
`noting` the item until the listener is through. So is an item whose operation could not be made.
-/

namespace StoreClient

namespace Batch

/-- An item that is done. -/
structure Item (σ : Signature) where
  /-- The position of its command in the batch. -/
  index : Nat
  query : σ.Query
  outcome : Outcome σ.Output

/-! ## Entries -/

/-- How far the listener of an item has come. -/
inductive Stage where
  /-- It is not registered yet. -/
  | unwatched
  /-- It waits for the item to be done. -/
  | awaited
  /-- It has to run. -/
  | due
  /-- It has told the observer. -/
  | reported
  /-- It has collected the item, or seen that the batch was interrupted. -/
  | collected
  /-- It has given the permit back. -/
  | released
  /-- It has counted the item, and is through. -/
  | counted
  deriving DecidableEq, Repr

/-- Whether the item holds its permit. -/
def Stage.holdsPermit : Stage → Bool
  | unwatched | awaited | due | reported | collected => true
  | released | counted => false

/-- Whether the listener is running. -/
def Stage.isRunning : Stage → Bool
  | due | reported | collected | released => true
  | unwatched | awaited | counted => false

/-- Whether the listener has collected the item. -/
def Stage.hasCollected : Stage → Bool
  | collected | released | counted => true
  | unwatched | awaited | due | reported => false

/-- A command that was handled: its operation as it is now, or the reason why there is none. -/
structure Entry (σ : Signature) extends Command σ where
  stage : Stage := .unwatched

namespace Entry

variable {σ : Signature}

/-- The entry of a command whose operation is handed to the transport. -/
def ofCommand (c : Command σ) : Entry σ := { c with operation := c.operation.map Operation.submit }

/-- The outcome of the item, once it is done. A command without an operation is done at once. -/
def outcome? (e : Entry σ) : Option (Outcome σ.Output) :=
  match e.operation with
  | .ok op => op.handle.outcome
  | .error c => some (.error c)

/-- The cause of the failure of the item, if it failed. -/
def cause? (e : Entry σ) : Option Cause :=
  match e.outcome? with
  | some (.error c) => some c
  | _ => none

/-- What identifies the item. -/
def subject (e : Entry σ) : σ.Query :=
  match e.operation with
  | .ok op => op.kind.query
  | .error _ => e.query

/-- The item at the given position, if it is done. -/
def item? (e : Entry σ) (index : Nat) : Option (Item σ) := e.outcome?.map (⟨index, e.subject, ·⟩)

/-- Whether there is an operation, which was handed to the transport. -/
def isSubmitted (e : Entry σ) : Bool := e.operation.isOk

/-- Gives an answer to the operation. The listener is due if it was waiting and the item is done
then. -/
def answer (e : Entry σ) (a : Answer) : Entry σ × List Notice :=
  match e.operation with
  | .error _ => (e, [])
  | .ok op =>
    let (op, _, notices) := op.answer a
    let e := { e with operation := .ok op }
    (if e.stage = .awaited ∧ e.outcome?.isSome then { e with stage := .due } else e, notices)

end Entry

/-! ## Batches -/

/-- Where dispatching is. -/
inductive Control where
  /-- Before the next command. -/
  | ready
  /-- The transport takes the operation of the entry at a position. -/
  | submitting (index : Nat)
  /-- The listener of the entry at a position runs. -/
  | noting (index : Nat)
  | ended
  deriving DecidableEq, Repr

/-- Something that happens to a batch. -/
inductive Move where
  /-- Dispatching goes on. It finds all dispatching `halted` or not, and a request that it makes
  has the number `ordinal` with the transport. -/
  | advance (halted : Bool) (ordinal : Nat)
  | answer (index : Nat) (a : Answer)
  | proceed (index : Nat)
  | abandon
  | listen (l : Listener)

/-- The most permits that a batch can hold ready. A batch with a higher limit cannot be dispatched.
-/
def maxPermits : Nat := UInt64.size / 8 - 1

end Batch

/-- A batch of commands that are dispatched with a limit. -/
structure Batch (σ : Signature) where
  /-- The number of the batch. -/
  id : Nat
  limit : Nat
  /-- What identifies the commands, in their order. -/
  queries : List σ.Query
  /-- The commands not yet handled. -/
  rest : List (Command σ)
  /-- The commands that were handled, in order. -/
  entries : List (Batch.Entry σ) := []
  control : Batch.Control := .ready
  permits : Permits
  /-- How many commands were handled up to the registration of the listener. -/
  dispatched : Nat := 0
  /-- The items collected, in the order in which they were. -/
  collected : List (Batch.Item σ) := []
  /-- How many items are not counted. -/
  remaining : Nat
  interrupted : Bool := false
  aggregate : Handle (List (Batch.Item σ)) Listener := {}

namespace Batch

variable {σ : Signature}

/-- A new batch. -/
def ofCommands (id limit : Nat) (commands : List (Command σ)) : Batch σ where
  id := id
  limit := limit
  queries := commands.map (·.query)
  rest := commands
  permits := .free limit
  remaining := commands.length

/-- How many commands the batch has. -/
def total (b : Batch σ) : Nat := b.queries.length

/-- Registers a listener on the aggregate. -/
def listen (b : Batch σ) (l : Listener) : Batch σ × List Notice :=
  let (aggregate, due) := b.aggregate.listen l
  ({ b with aggregate := aggregate }, Notice.ofListeners due aggregate.isSuccess)

/-- Exchanges the entry at a position. -/
def setEntry (b : Batch σ) (index : Nat) (e : Entry σ) : Batch σ :=
  { b with entries := b.entries.set index e }

/-! ## Ending -/

/-- Completes a batch whose items are all done, with what was collected. -/
def complete (b : Batch σ) : Batch σ × List Notice :=
  let items := b.collected
  let b := { b with collected := [] }
  match b.aggregate.complete? (.ok items) with
  | some (aggregate, due) => ({ b with aggregate := aggregate },
      Notice.ofListeners due true ++ [.observed (.completed b.id items.length)])
  | none => (b, [])

/-- Fails the batch, unless it is done. -/
def interrupt (b : Batch σ) : Batch σ × List Notice :=
  let b := { b with interrupted := true }
  match b.aggregate.complete? (.error (.dispatchInterrupted b.dispatched b.total)) with
  | some (aggregate, due) => ({ b with aggregate := aggregate, collected := [] },
      Notice.ofListeners due false ++ [.observed (.interrupted b.id b.dispatched b.total)])
  | none => (b, [])

/-- Gives up dispatching before the next command. -/
def abandon (b : Batch σ) : Batch σ × List Notice :=
  if b.control = .ready then { b with control := .ended, permits := b.permits.leave }.interrupt
  else (b, [])

/-! ## Items -/

/-- Where dispatching goes on after a command. -/
def onward (b : Batch σ) : Control := if b.rest.isEmpty then .ended else .ready

/-- The last step of a listener: counts the item, and completes the batch if it was the last. -/
def count (b : Batch σ) (index : Nat) : Batch σ × List Notice :=
  let last := b.remaining = 1
  let b := { b with
    remaining := b.remaining - 1
    control := if b.control = .noting index then b.onward else b.control }
  if last then b.complete else (b, [])

/-- Lets the listener of the item at a position take its next step. -/
def proceed (b : Batch σ) (index : Nat) : Batch σ × List Notice :=
  match b.entries[index]? with
  | none => (b, [])
  | some e => match e.stage with
    | .due => (b.setEntry index { e with stage := .reported },
        [.observed (.itemDone b.id index e.cause?)])
    | .reported =>
      let items := if b.interrupted then [] else (e.item? index).toList
      ({ b.setEntry index { e with stage := .collected } with
          collected := b.collected ++ items }, [])
    | .collected =>
      ({ b.setEntry index { e with stage := .released } with permits := b.permits.giveBack }, [])
    | .released => (b.setEntry index { e with stage := .counted }).count index
    | _ => (b, [])

/-- Gives an answer to the operation at a position. -/
def answer (b : Batch σ) (index : Nat) (a : Answer) : Batch σ × List Notice :=
  match b.entries[index]? with
  | none => (b, [])
  | some e =>
    let (e, notices) := e.answer a
    (b.setEntry index e, notices)

/-! ## Dispatching -/

/-- Handles a command for which a permit was taken. -/
def handle (b : Batch σ) (ordinal : Nat) (c : Command σ) : Batch σ × List Notice :=
  let index := b.entries.length
  let b := { b with entries := b.entries ++ [.ofCommand c], control := .submitting index }
  match c.operation with
  | .ok op => (b, [.observed (.dispatched b.id index (b.limit - b.permits.available)),
      .submitted ordinal op.kind.request])
  | .error _ => (b, [])

/-- Registers the listener of the entry at a position, or lets it run if the item is done. -/
def watch (b : Batch σ) (index : Nat) : Batch σ :=
  match b.entries[index]? with
  | none => b
  | some e =>
    let b := { b with dispatched := b.dispatched + 1 }
    if e.outcome?.isSome then
      { b.setEntry index { e with stage := .due } with control := .noting index }
    else { b.setEntry index { e with stage := .awaited } with control := b.onward }

/-- Goes on with the next command. If all dispatching is halted, or if the limit cannot be kept, the
batch fails instead. -/
def next (b : Batch σ) (halted : Bool) (ordinal : Nat) : Batch σ × List Notice :=
  if maxPermits < b.limit then b.abandon
  else match b.rest with
    | [] => ({ b with control := .ended }, [])
    | c :: rest =>
      if halted then b.abandon
      else match b.permits.take with
        | (permits, false) => ({ b with permits := permits }, [])
        | (permits, true) => { b with permits := permits, rest := rest }.handle ordinal c

/-- Lets dispatching go on. -/
def advance (b : Batch σ) (halted : Bool) (ordinal : Nat) : Batch σ × List Notice :=
  match b.control with
  | .ready => b.next halted ordinal
  | .submitting index => (b.watch index, [])
  | _ => (b, [])

/-- Whether dispatching has the next command before it, and would only wait for a permit. -/
def isBlocked (b : Batch σ) (halted : Bool) : Bool :=
  b.control == .ready && !halted && b.limit ≤ maxPermits && !b.rest.isEmpty && !b.permits.take.2

/-! ## Runs -/

/-- Lets something happen. -/
def perform (b : Batch σ) : Move → Batch σ × List Notice
  | .advance halted ordinal => b.advance halted ordinal
  | .answer index a => b.answer index a
  | .proceed index => b.proceed index
  | .abandon => b.abandon
  | .listen l => b.listen l

/-- Lets things happen one after another. -/
def run (b : Batch σ) : List Move → Batch σ × List Notice
  | [] => (b, [])
  | m :: rest =>
    let (b, notices) := b.perform m
    let (b, later) := b.run rest
    (b, notices ++ later)

/-- How many steps a listener takes. -/
def listenerSteps : Nat := 4

end Batch

end StoreClient
