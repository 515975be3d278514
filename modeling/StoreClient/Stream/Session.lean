import StoreClient.Stream.Producer
import StoreClient.Sums

/-!
# Sessions

A session is a stream in use: someone has its operation, a producer may feed replies beside it, and
there are results and a reader. `perform` does one thing and gives its answer.

The operation starts with the caller. Once it is executed a transport has it: the caller still can
feed replies, but no longer take the results. Whatever concerns an operation, results or a reader
that are gone has no effect, and to drop what is gone is no mistake. There is at most one reader,
and it has the number zero.

A producer goes on whenever it can, and that is looked at before each step. It shares the operation:
an operation that is dropped beside it is given up only when the producer has fed everything.

## Termination

`drain` reads to the end with fuel. Each of its steps takes an item, reports the failure of the
stream, which happens once, or is the last; `backlog` bounds the number of items.
-/

namespace StoreClient.Stream

/-- Who has the operation of a stream. -/
inductive Owner where
  | caller
  | transport
  | nobody
  deriving DecidableEq, Repr

/-- A stream in use. -/
structure Session (σ : Signature) (ι : Type) where
  stream : Stream σ ι
  owner : Owner := .caller
  producer : Option Producer := none
  /-- Whether the operation was dropped beside the producer. -/
  givenUp : Bool := false

/-- Something to do in a session. -/
inductive Step where
  -- the operation
  | request
  | expects
  | isDone
  | submit
  | receive (m : Message)
  | fail (c : Cause)
  | takeResults
  | execute
  | drop
  -- the producer
  | feed (messages : List Message)
  | join
  -- the handle
  | query
  | listen (l : Listener)
  -- the results with a number
  | copyResults (n : Nat)
  | dropResults (n : Nat)
  | outcome (n : Nat)
  | claim (n : Nat)
  -- the reader with a number
  | hasNext (n : Nat)
  | nextItem (n : Nat)
  | next (n : Nat)
  | drain (n : Nat)
  | timeout (n : Nat)
  | setTimeout (n : Nat) (d : Duration)
  | dropReader (n : Nat)

/-- The answer to a step. -/
inductive Answer (σ : Signature) (ι : Type) where
  | nothing
  /-- What the step is about is not there. -/
  | gone
  /-- No producer is there. -/
  | noProducer
  | number (n : Nat)
  | flag (b : Bool)
  | flags (bs : List Bool)
  | message (m : Message)
  | query (q : σ.Query)
  | outcome (o : Option (Outcome σ.Output))
  | error (e : StreamError)
  /-- The number of the results, if the operation was submitted. -/
  | executed (r : Except StreamError Nat)
  | item (i : Except StreamError ι)
  | endOfItems
  | items (is : List (Except StreamError ι))

/-- The notices among events. -/
def Event.notices {σ : Signature} {ι : Type} (events : List (Event σ ι)) : List Notice :=
  events.filterMap fun
    | .noticed n => some n
    | _ => none

/-- The answer that can be seen of a move. -/
def Event.answer? {σ : Signature} {ι : Type} : Event σ ι → Option (Answer σ ι)
  | shared n => some (.number n)
  | claimed (.ok _) => some (.number 0)
  | claimed (.error e) => some (.error e)
  | ready (.ok b) => some (.flag b)
  | ready (.error e) => some (.error e)
  | item i => some (.item i)
  | next none => some .endOfItems
  | next (some i) => some (.item i)
  | waits d => some (.number d.milliseconds.toNat)
  | _ => none

namespace Session

variable {σ : Signature} {ι : Type}

/-- A session with a stream that was executed. -/
def ofExecuted (s : Stream σ ι) : Session σ ι := { stream := s.execute.1, owner := .transport }

/-- Makes moves in a session. -/
def run (s : Session σ ι) (ms : List Move) : Session σ ι × List (Event σ ι) :=
  let (stream, events) := s.stream.run ms
  ({ s with stream := stream }, events)

/-- Makes a move, and gives the answer that can be seen of it. -/
def ask (s : Session σ ι) (m : Move) (otherwise : Answer σ ι) :
    Session σ ι × Answer σ ι × List (Event σ ι) :=
  let (s, events) := s.run [m]
  (s, (events.findSome? Event.answer?).getD otherwise, events)

/-! ## The producer -/

/-- Lets the producer go on as far as it can. -/
def advance (s : Session σ ι) : Session σ ι × List (Event σ ι) :=
  match s.producer with
  | none => (s, [])
  | some p =>
    let (stream, p, events) := s.stream.advance p
    let stream := if s.givenUp && stream.hasFed p then stream.drop.1 else stream
    ({ s with stream := stream, producer := some p }, events)

/-- Lets the producer go on to its end, and gives what was answered to it. -/
def join (s : Session σ ι) : Session σ ι × Answer σ ι × List (Event σ ι) :=
  match s.producer with
  | none => (s, .noProducer, [])
  | some p =>
    let (stream, answers, events) := s.stream.complete p
    let stream := if s.givenUp then stream.drop.1 else stream
    ({ s with stream := stream, producer := none, givenUp := false }, .flags answers, events)

/-! ## The operation -/

/-- Feeds a reply. One that is fed while the producer waits is processed beside its own. -/
def receive (s : Session σ ι) (m : Message) : Session σ ι × Answer σ ι × List (Event σ ι) :=
  let (stream, events) := match s.stream.delivery with
    | none => s.stream.receive m
    | some held =>
      let (stream, events) := { s.stream with delivery := none }.receive m
      ({ stream with delivery := some held }, events)
  ({ s with stream := stream }, .flag ((Event.answers events).any id), events)

/-- Gives the operation up, now or when the producer has fed everything. -/
def dropOperation (s : Session σ ι) : Session σ ι :=
  match s.owner, s.producer with
  | .nobody, _ => s
  | _, none => { s with owner := .nobody, stream := s.stream.drop.1 }
  | _, some _ => { s with owner := .nobody, givenUp := true }

/-- Hands the operation to a transport; one whose results are gone is given up. -/
def execute (s : Session σ ι) : Session σ ι × Answer σ ι × List (Event σ ι) :=
  if s.stream.holdsResults then
    let number := s.stream.shares.length
    let (stream, events) := s.stream.execute
    ({ s with stream := stream, owner := .transport }, .executed (.ok number), events)
  else (s.dropOperation, .executed (.error .alreadyConsumed), [])

/-- Does something with the operation. -/
def performOperation (s : Session σ ι) : Step → Session σ ι × Answer σ ι × List (Event σ ι)
  | .request => (s, .message s.stream.operation.kind.request, [])
  | .expects => (s, .number s.stream.operation.kind.expects.toNat, [])
  | .isDone => (s, .flag s.stream.operation.isDone, [])
  | .submit => s.ask .submit .nothing
  | .receive m => s.receive m
  | .fail c =>
    let (s, events) := s.run (failing c)
    (s, .nothing, events)
  | .feed messages =>
    let (s, events) := { s with producer := some { messages := messages } }.advance
    (s, .nothing, events)
  | _ => (s, .gone, [])

/-- Does something that only the caller who has the operation can do. -/
def performCaller (s : Session σ ι) : Step → Session σ ι × Answer σ ι × List (Event σ ι)
  | .takeResults => s.ask .takeResults .nothing
  | .execute => s.execute
  | _ => (s, .gone, [])

/-! ## The reader -/

/-- How many items a producer may still queue. -/
def backlog (s : Session σ ι) : Nat :=
  let count (m : Message) : Nat := match s.stream.operation.examine m with
    | .ok reply => (s.stream.items reply).length
    | .error _ => 0
  let waiting := match s.stream.delivery with
    | some (.queueing _ _ rest) => rest.length
    | _ => 0
  match s.producer with
  | none => 0
  | some p => sumOf count p.messages + waiting

/-- Reads up to the end, or to the first item that does not arrive in time. -/
def drain : (fuel : Nat) → Session σ ι →
    Session σ ι × List (Except StreamError ι) × List (Event σ ι)
  | 0, s => (s, [], [])
  | fuel + 1, s =>
    let (s, before) := s.advance
    let (s, answer, told) := s.ask (.read .next) .gone
    match answer with
    | .item (.error (.pollTimeout ms)) => (s, [.error (.pollTimeout ms)], before ++ told)
    | .item i =>
      let (s, items, later) := drain fuel s
      (s, i :: items, before ++ told ++ later)
    | _ => (s, [], before ++ told)

/-- Does something with the reader. -/
def performReader (s : Session σ ι) (r : Reader ι) :
    Step → Session σ ι × Answer σ ι × List (Event σ ι)
  | .hasNext _ => s.ask (.read .hasNext) .gone
  | .nextItem _ => s.ask (.read .nextItem) .gone
  | .next _ => s.ask (.read .next) .gone
  | .drain _ =>
    let (s, items, events) := drain (s.stream.queue.length + s.backlog + 3) s
    (s, .items items, events)
  | .timeout _ => (s, .number r.timeout.milliseconds.toNat, [])
  | .setTimeout _ d => s.ask (.read (.setTimeout d)) .gone
  | _ => (s, .gone, [])

/-! ## Steps -/

/-- What a step is about. -/
inductive Target where
  | caller
  | operation
  | outside
  | reader (n : Nat)

/-- What a step is about. To drop something and to join the producer is possible at any time, and
the handle and results outlive the operation. -/
def target : Step → Target
  | .takeResults => .caller
  | .execute => .caller
  | .query => .outside
  | .listen _ => .outside
  | .drop => .outside
  | .join => .outside
  | .copyResults _ => .outside
  | .dropResults _ => .outside
  | .outcome _ => .outside
  | .claim _ => .outside
  | .dropReader _ => .outside
  | .hasNext n => .reader n
  | .nextItem n => .reader n
  | .next n => .reader n
  | .drain n => .reader n
  | .timeout n => .reader n
  | .setTimeout n _ => .reader n
  | _ => .operation

/-- Does something that needs neither the operation nor a reader. -/
def performOutside (s : Session σ ι) : Step → Session σ ι × Answer σ ι × List (Event σ ι)
  | .query => (s, .query s.stream.operation.kind.query, [])
  | .listen l => s.ask (.listen l) .nothing
  | .drop => (s.dropOperation, .nothing, [])
  | .join => s.join
  | .copyResults n => s.ask (.copyResults n) .gone
  | .dropResults n => s.ask (.dropResults n) .nothing
  | .outcome n =>
    (s, if s.stream.isAlive n then .outcome s.stream.operation.handle.outcome else .gone, [])
  | .claim n => s.ask (.claim n) .gone
  | .dropReader 0 => s.ask (.read .release) .nothing
  | .dropReader _ => (s, .nothing, [])
  | _ => (s, .gone, [])

/-- Does something if what it is about is there. -/
def performIn (s : Session σ ι) (step : Step) : Session σ ι × Answer σ ι × List (Event σ ι) :=
  match target step with
  | .caller => if s.owner = .caller then s.performCaller step else (s, .gone, [])
  | .operation => if s.owner = .nobody then (s, .gone, []) else s.performOperation step
  | .outside => s.performOutside step
  | .reader n => match n, s.stream.claim with
    | 0, .reading r => s.performReader r step
    | _, _ => (s, .gone, [])

/-- Does something, after the producer went on, and tells what can be seen of it. -/
def step (s : Session σ ι) (step : Step) : Session σ ι × Answer σ ι × List (Event σ ι) :=
  let (s, before) := s.advance
  let (s, answer, events) := s.performIn step
  (s, answer, before ++ events)

/-- Does something, and gives what becomes visible outside. -/
def perform (s : Session σ ι) (step : Step) : Session σ ι × Answer σ ι × List Notice :=
  let (s, answer, events) := s.step step
  (s, answer, Event.notices events)

end Session

end StoreClient.Stream
