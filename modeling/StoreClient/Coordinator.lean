import StoreClient.Batch
import StoreClient.Config
import StoreClient.Schedule
import StoreClient.Sums

/-!
# The coordinator

A coordinator takes batches, numbers them from one, and dispatches them side by side. Each batch has
its own limit and permits; what the batches share is the transport, the runtime that dispatches
them, and the order to halt.

The batches of one coordinator may be of different kinds. `Index` tells the kinds apart.

## Acts

Whatever happens to a coordinator is made of *acts*: a batch is given, a move of one batch is made,
dispatching is halted, or the runtime goes away. `perform` does one act, and `run` does several. In
what order they come is up to the callers, the transport and the runtime.

## Scheduling

The functions after that make the acts of a runtime that lets one batch after another go on. A batch
whose next step can do something has a turn to come; one that needs a permit is *waiting* until an
item gives one back. `pump` gives turns, in the order of the schedule, until no batch has one to
come. In its turn a batch goes on as far as it can, but handles no more than `turnLength` commands.
If it could have gone on, it is set aside; the batches set aside come back after `roundLength`
turns, or when no other batch is left. Batches also change outside `pump`, when a transport answers.
-/

namespace StoreClient

/-- What dispatches batches. -/
inductive Runtime where
  /-- There is none. -/
  | absent
  | live
  | shutDown
  deriving DecidableEq, Repr

/-- A dispatcher of batches, and the batches given to it. -/
structure Coordinator {Index : Type} (kinds : Index → Signature) where
  /-- The limit of a batch that is given without one. -/
  limit : Nat
  runtime : Runtime
  /-- Whether the coordinator holds on to its runtime. One that does not uses the runtime that is
  around when a batch is given, and has none when that is gone. -/
  keepsRuntime : Bool := true
  /-- Whether dispatching is to stop, for the batches there are and for those to come. -/
  halted : Bool := false
  /-- The batches in the order of their numbers. -/
  batches : List ((i : Index) × Batch (kinds i)) := []
  /-- For each request the transport took, the position of its batch and of its command there. -/
  submissions : List (Nat × Nat) := []
  /-- The turns to come, of the batches that can go on. -/
  schedule : Schedule := {}
  /-- The batches that need a permit, in the order in which they ran out of them. -/
  waiting : List Nat := []

namespace Coordinator

variable {Index : Type} {kinds : Index → Signature}

/-- A new coordinator, if the configuration is valid. -/
def ofConfig (c : FanOutConfig) (runtime : Runtime) : Except ConfigError (Coordinator kinds) := do
  c.validate
  return { limit := c.maxInFlight.toNat, runtime := runtime }

/-! ## Taking batches -/

/-- Adds a batch to those there are. -/
def add (c : Coordinator kinds) (i : Index) (b : Batch (kinds i)) : Coordinator kinds :=
  { c with batches := c.batches ++ [⟨i, b⟩] }

/-- Takes a batch. A batch without commands is done at once; one that nothing dispatches fails at
once. -/
def dispatch (c : Coordinator kinds) (i : Index) (commands : List (Command (kinds i)))
    (limit : Nat) : Coordinator kinds × List Notice :=
  let position := c.batches.length
  let b := Batch.ofCommands (position + 1) limit commands
  let start := Notice.observed (.started b.id b.total limit)
  if commands.isEmpty then
    let (b, notices) := { b with control := .ended }.complete
    (c.add i b, start :: notices)
  else match c.runtime with
    | .live => ({ c.add i b with schedule := c.schedule.add [position] }, [start])
    | .shutDown =>
      let (b, notices) := b.abandon
      (c.add i b, start :: notices)
    | .absent =>
      let (b, notices) := b.abandon
      (c.add i b, start :: .logged (.noRuntime b.id b.total) :: notices)

/-- Takes a batch with the configured limit. -/
def execute (c : Coordinator kinds) (i : Index) (commands : List (Command (kinds i))) :
    Coordinator kinds × List Notice :=
  c.dispatch i commands c.limit

/-- Takes a batch with a limit of its own, which must not be zero. -/
def executeWithLimit (c : Coordinator kinds) (i : Index) (commands : List (Command (kinds i)))
    (limit : UInt64) : Except ConfigError (Coordinator kinds × List Notice) := do
  FanOutConfig.validate ⟨limit⟩
  return c.dispatch i commands limit.toNat

/-! ## Acts -/

/-- Something that happens to a coordinator. -/
inductive Act (kinds : Index → Signature) where
  /-- A batch is given, to be dispatched with the configured limit. -/
  | execute (i : Index) (commands : List (Command (kinds i)))
  /-- A batch is given with a limit of its own. -/
  | executeWithLimit (i : Index) (commands : List (Command (kinds i))) (limit : UInt64)
  /-- The dispatching of the batch at a position goes on. -/
  | advance (position : Nat)
  /-- The transport answers its request number `ordinal`. -/
  | answer (ordinal : Nat) (a : Answer)
  /-- The listener of an item goes on. -/
  | proceed (position index : Nat)
  /-- The dispatching of the batch at a position is given up. -/
  | abandon (position : Nat)
  /-- Dispatching is halted. -/
  | halt
  /-- The runtime goes away. -/
  | close
  /-- A listener is registered on the batch at a position. -/
  | listen (position : Nat) (l : Listener)

/-- Makes a move of the batch at a position. A request that is made by it is the next one that the
transport takes. -/
def move (c : Coordinator kinds) (position : Nat) (m : Batch.Move) :
    Coordinator kinds × List Notice :=
  match c.batches[position]? with
  | none => (c, [])
  | some ⟨i, b⟩ =>
    let (b', notices) := b.perform m
    let submitted := match b'.entries[b.entries.length]? with
      | some e => if e.isSubmitted then [(position, b.entries.length)] else []
      | none => []
    ({ c with
        batches := c.batches.set position ⟨i, b'⟩
        submissions := c.submissions ++ submitted }, notices)

/-- Does an act. -/
def perform (c : Coordinator kinds) : Act kinds → Coordinator kinds × List Notice
  | .execute i commands => c.execute i commands
  | .executeWithLimit i commands limit => match c.executeWithLimit i commands limit with
    | .ok r => r
    | .error _ => (c, [])
  | .advance position => c.move position (.advance c.halted c.submissions.length)
  | .answer ordinal a => match c.submissions[ordinal]? with
    | none => (c, [])
    | some (position, index) => c.move position (.answer index a)
  | .proceed position index => c.move position (.proceed index)
  | .abandon position => c.move position .abandon
  | .halt => ({ c with halted := true }, [])
  | .close => match c.runtime with
    | .live => ({ c with runtime := if c.keepsRuntime then .shutDown else .absent }, [])
    | _ => (c, [])
  | .listen position l => c.move position (.listen l)

/-- Does acts one after another. -/
def run (c : Coordinator kinds) : List (Act kinds) → Coordinator kinds × List Notice
  | [] => (c, [])
  | a :: rest =>
    let (c, notices) := c.perform a
    let (c, later) := c.run rest
    (c, notices ++ later)

/-! ## Dispatching -/

/-- The answers that a transport gives at once to an operation of any kind. -/
abbrev Answers (kinds : Index → Signature) := (i : Index) → Operation (kinds i) → List Answer

/-- The acts by which a listener runs to its end. -/
def listenerActs (position index : Nat) : List (Act kinds) :=
  List.replicate Batch.listenerSteps (.proceed position index)

/-- The acts that end the handling of a command for which a permit was taken: the transport gives
the answers that it gives at once, and the listener is registered, and runs if the item is done. -/
def submissionActs (answers : Answers kinds) (ordinal position : Nat) :
    (i : Index) × Batch (kinds i) → List (Act kinds)
  | ⟨i, b⟩ => match b.control with
    | .submitting index =>
      let given := match b.entries[index]?.map (·.operation) with
        | some (.ok op) => answers i op
        | _ => []
      given.map (.answer ordinal) ++ .advance position :: listenerActs position index
    | _ => []

/-- Handles the next command of the batch at a position. -/
def step (c : Coordinator kinds) (answers : Answers kinds) (position : Nat) :
    Coordinator kinds × List Notice :=
  let (c', notices) := c.perform (.advance position)
  match c'.batches[position]? with
  | none => (c', notices)
  | some e =>
    let (c', later) := c'.run (submissionActs answers c.submissions.length position e)
    (c', notices ++ later)

/-- Whether the batch at a position has its next command before it. -/
def isReady (c : Coordinator kinds) (position : Nat) : Bool :=
  match c.batches[position]? with
  | none => false
  | some ⟨_, b⟩ => b.control = .ready

/-- Whether the batch at a position needs a permit to go on. -/
def isBlocked (c : Coordinator kinds) (position : Nat) : Bool :=
  match c.batches[position]? with
  | none => false
  | some ⟨_, b⟩ => b.isBlocked c.halted

/-- How many commands a batch handles in one turn at most. -/
def turnLength : Nat := 128

/-- How many turns are given before the batches that were set aside come back. -/
def roundLength : Nat := 61

/-- Lets the batch at a position go on for at most some steps. If it could go on after them, it is
set aside. -/
def turn (answers : Answers kinds) (position : Nat) :
    (steps : Nat) → Coordinator kinds → Coordinator kinds × List Notice
  | 0, c =>
    if c.isReady position then ({ c with schedule := c.schedule.setAside position }, [])
    else (c, [])
  | steps + 1, c =>
    if !c.isReady position then (c, [])
    else if c.isBlocked position then
      let (c, notices) := c.perform (.advance position)
      ({ c with waiting := c.waiting ++ [position] }, notices)
    else
      let (c, notices) := c.step answers position
      let (c, later) := turn answers position steps c
      (c, notices ++ later)

/-- Gives at most so many turns. -/
def round (answers : Answers kinds) :
    (turns : Nat) → Coordinator kinds → Coordinator kinds × List Notice
  | 0, c => (c, [])
  | turns + 1, c => match c.schedule.next with
    | (schedule, none) => ({ c with schedule := schedule }, [])
    | (schedule, some position) =>
      let (c, notices) := turn answers position turnLength { c with schedule := schedule }
      let (c, later) := round answers turns c
      (c, notices ++ later)

/-- Gives turns for at most so many rounds. Before each round the batches that were set aside come
back. -/
def rounds (answers : Answers kinds) :
    (count : Nat) → Coordinator kinds → Coordinator kinds × List Notice
  | 0, c => (c, [])
  | count + 1, c =>
    let (c, notices) := round answers roundLength { c with schedule := c.schedule.resume }
    if c.schedule.size = 0 then (c, notices)
    else
      let (c, later) := rounds answers count c
      (c, notices ++ later)

/-- A bound on the rounds that it takes until no turn is to come: each but the last leaves fewer
commands or fewer turns. -/
def maxRounds (c : Coordinator kinds) : Nat :=
  sumOf (fun e => e.2.rest.length + 1) c.batches + c.schedule.size + 1

/-- Gives turns until none is to come. -/
def pump (c : Coordinator kinds) (answers : Answers kinds) : Coordinator kinds × List Notice :=
  if c.runtime = .live then rounds answers c.maxRounds c else (c, [])

/-! ## Answers and interruptions from outside -/

/-- The operation of the request with the given number. -/
def operation? (c : Coordinator kinds) (ordinal : Nat) :
    Option ((i : Index) × Operation (kinds i)) := do
  let (position, index) ← c.submissions[ordinal]?
  let ⟨i, b⟩ ← c.batches[position]?
  let e ← b.entries[index]?
  match e.operation with
  | .ok op => some ⟨i, op⟩
  | .error _ => none

/-- Gives the batch at a position a turn if it was waiting and need not wait any more. -/
def wake (c : Coordinator kinds) (position : Nat) : Coordinator kinds :=
  if position ∈ c.waiting ∧ c.isBlocked position = false then
    { c with waiting := c.waiting.erase position, schedule := c.schedule.add [position] }
  else c

/-- Gives an answer to the request with the given number, lets the listener of its item run if the
item is done then, and tells whether it is; nothing if there is no such request. -/
def answer? (c : Coordinator kinds) (ordinal : Nat) (a : Answer) :
    Option (Coordinator kinds × Bool × List Notice) := do
  let (position, index) ← c.submissions[ordinal]?
  let ⟨_, op⟩ ← c.operation? ordinal
  let (c, notices) := c.run (.answer ordinal a :: listenerActs position index)
  return (c.wake position, (op.answer a).2.1, notices)

/-- Stops dispatching: batches that have commands left fail when they next go on. -/
def interrupt (c : Coordinator kinds) : Coordinator kinds :=
  { (c.perform .halt).1 with schedule := c.schedule.add c.waiting, waiting := [] }

/-- Shuts the runtime down, if there is one, and gives up the dispatching of every batch, in
order. -/
def shutDown (c : Coordinator kinds) : Coordinator kinds × List Notice :=
  match c.runtime with
  | .live =>
    let (c, notices) := c.run (.close :: (List.range c.batches.length).map .abandon)
    ({ c with schedule := {}, waiting := [] }, notices)
  | _ => (c, [])

/-- Registers a listener on the batch at a position. -/
def listen (c : Coordinator kinds) (position : Nat) (l : Listener) :
    Coordinator kinds × List Notice :=
  c.perform (.listen position l)

end Coordinator

end StoreClient
