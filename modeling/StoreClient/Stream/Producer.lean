import StoreClient.Stream

/-!
# Producers

How the calls of an operation are made of moves, where nothing comes between the moves of a call but
what is said here. `follow` lets the delivery of a reply go on. It stops at a full queue, and goes
on from there when the queue may have room again or was closed. For a producer next to which nothing
else happens no room will come, and `receive` lets the operation fail as stalled.

A `Producer` feeds a list of replies to a stream while others use the stream too. `complete` is for
the time when nobody else will do anything.
-/

namespace StoreClient.Stream

variable {σ : Signature} {ι : Type}

/-- The answers to the replies that were processed: whether the operation was done after each. -/
def Event.answers (events : List (Event σ ι)) : List Bool :=
  events.filterMap fun
    | .accepted a => some a.isFinished
    | _ => none

/-! ## Calls -/

/-- A failure that is reported from outside, by one call. -/
def failing (c : Cause) : List Move := [.fail c, .publish, .close]

/-- The moves by which a delivery comes from one point to the next. The failures that are reported
while items are made come before the items are shared. -/
def nextMoves (s : Stream σ ι) : List Move :=
  match s.delivery with
  | none => []
  | some (.received _) => [.examine]
  | some (.decoded _ reply) => (s.interruptions reply).flatMap failing ++ [.share]
  | some (.queueing _ _ rest) =>
    .discard :: List.replicate (min rest.length (s.capacity - s.queue.length)) .push
  | some (.settling _ _) => [.settle, .publish, .close]

/-- Lets a delivery go on to its `n`-th next point. -/
def follow (s : Stream σ ι) : (n : Nat) → Stream σ ι × List (Event σ ι)
  | 0 => (s, [])
  | n + 1 =>
    let (s, events) := s.run s.nextMoves
    let (s, later) := s.follow n
    (s, events ++ later)

/-- Takes up a reply, and goes on until it is settled, or finds the queue full. -/
def start (s : Stream σ ι) (m : Message) : Stream σ ι × List (Event σ ι) :=
  let (s, events) := s.perform (.take m)
  let (s, later) := s.follow 4
  (s, events ++ later)

/-- Goes on with a delivery that found the queue full. -/
def resume (s : Stream σ ι) : Stream σ ι × List (Event σ ι) := s.follow 2

/-- Gives up a delivery for which no room came. -/
def giveUp (s : Stream σ ι) : Stream σ ι × List (Event σ ι) :=
  let (s, events) := s.perform .stall
  let (s, later) := s.follow 1
  (s, events ++ later)

/-- Feeds a reply while nobody reads: a full queue stalls. -/
def receive (s : Stream σ ι) (m : Message) : Stream σ ι × List (Event σ ι) :=
  let (s, events) := s.start m
  let (s, later) := s.giveUp
  (s, events ++ later)

/-- Takes the results and submits the operation. -/
def execute (s : Stream σ ι) : Stream σ ι × List (Event σ ι) := s.run [.takeResults, .submit]

/-! ## Producers with company -/

/-- The replies that are still to be fed, and what was answered to those that were. -/
structure Producer where
  messages : List Message
  /-- For each reply fed, whether the operation was done after it. -/
  answers : List Bool := []

/-- Whether a producer has fed everything. -/
def hasFed (s : Stream σ ι) (p : Producer) : Bool := p.messages.isEmpty && s.delivery.isNone

/-- Feeds replies up to the first that finds the queue full. -/
def feed (s : Stream σ ι) (answers : List Bool) :
    List Message → Stream σ ι × Producer × List (Event σ ι)
  | [] => (s, ⟨[], answers⟩, [])
  | m :: rest =>
    let (s, events) := s.start m
    let answers := answers ++ Event.answers events
    if s.delivery.isSome then (s, ⟨rest, answers⟩, events)
    else
      let (s, p, later) := s.feed answers rest
      (s, p, events ++ later)

/-- Lets a producer go on as far as it can. -/
def advance (s : Stream σ ι) (p : Producer) : Stream σ ι × Producer × List (Event σ ι) :=
  let (s, events) := s.resume
  let answers := p.answers ++ Event.answers events
  if s.delivery.isSome then (s, ⟨p.messages, answers⟩, events)
  else
    let (s, p, later) := s.feed answers p.messages
    (s, p, events ++ later)

/-- Feeds replies to a stream that nobody else uses. -/
def receiveAll (s : Stream σ ι) (answers : List Bool) :
    List Message → Stream σ ι × List Bool × List (Event σ ι)
  | [] => (s, answers, [])
  | m :: rest =>
    let (s, events) := s.receive m
    let (s, answers, later) := s.receiveAll (answers ++ Event.answers events) rest
    (s, answers, events ++ later)

/-- Lets a producer go on to its end while nobody else uses the stream. -/
def complete (s : Stream σ ι) (p : Producer) : Stream σ ι × List Bool × List (Event σ ι) :=
  let (s, p, events) := s.advance p
  let (s, stalled) := s.giveUp
  let (s, answers, later) := s.receiveAll (p.answers ++ Event.answers stalled) p.messages
  (s, answers, events ++ stalled ++ later)

end StoreClient.Stream
