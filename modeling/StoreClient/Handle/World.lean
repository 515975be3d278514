import StoreClient.Handle.Program
import StoreClient.Sums

/-!
# Running programs on handles

A world holds handles, the listeners registered on them, and waiters. A program runs in a world one
step at a time, and `World.perform` gives the new world, the answer to the program and what its
listeners reported.

## The agenda

Listeners run within the step that makes their handle done, and may complete other handles in turn.
What is still to be done is therefore kept on an agenda, the most urgent first: a listener puts its
own steps before the listeners after it. A panic drops the agenda up to the next frame that catches
it, which is the report of the nested step that the panic came from; without such a frame, the panic
is the answer of the program.

## Termination

`next` takes at least one off the weight of the agenda and the registered listeners together, so a
run of as many steps as they weigh leaves nothing to be done.
-/

namespace StoreClient.Program

variable {α : Type}

/-! ## Worlds -/

/-- A handle in a world. -/
structure Cell (α : Type) where
  query : String
  handle : Handle α (Listener α) := {}

/-- Someone who waits for the handle in a cell. -/
structure Waiter where
  cell : Nat
  /-- Whether the outcome was fetched. -/
  joined : Bool := false

/-- Handles and those who wait for them. -/
structure World (α : Type) where
  cells : List (Cell α) := []
  /-- The cell that each number of a handle stands for. -/
  handles : List Nat := []
  waiters : List Waiter := []

namespace World

/-- The cell that a number stands for. -/
def find? (w : World α) (h : Nat) : Option (Nat × Cell α) := do
  let n ← w.handles[h]?
  let cell ← w.cells[n]?
  return (n, cell)

/-- Puts a handle into a cell. -/
def setHandle (w : World α) (n : Nat) (cell : Cell α) (handle : Handle α (Listener α)) : World α :=
  { w with cells := w.cells.set n { cell with handle := handle } }

/-- Adds a pending handle, and gives the world with its cell and its number. -/
def create (w : World α) (query : String) : World α × Nat × Nat :=
  ({ w with cells := w.cells ++ [{ query := query }], handles := w.handles ++ [w.cells.length] },
    w.cells.length, w.handles.length)

end World

/-! ## Answers and reports -/

/-- The answer to a step. -/
inductive Answer (α : Type) where
  | nothing
  /-- The number of a handle or a waiter. -/
  | number (n : Nat)
  | completed
  /-- The handle was done already. -/
  | refused
  | panicked (text : String)
  | outcome (o : Option (Outcome α))
  | cause (c : Option Cause)
  | flag (b : Bool)
  | text (s : String)
  /-- The waiter has nothing to fetch. -/
  | notReady

/-- What a listener reports. -/
inductive Event (α : Type) where
  /-- A listener ran, and saw this outcome. -/
  | heard (name : String) (o : Option (Outcome α))
  /-- A step of a listener was answered. -/
  | answered (label : String) (a : Answer α)

/-- A handle as a text. -/
def Cell.describe (c : Cell α) : String :=
  "ResultHandle \x7b query_info: " ++ Quoted.quote c.query ++ s!", done: {c.handle.isDone}" ++
    s!", success: {c.handle.isSuccess} \x7d"

/-- The answer to a question about a handle. -/
def Cell.ask (c : Cell α) : Question → Answer α
  | .outcome => .outcome c.handle.outcome
  | .isDone => .flag c.handle.isDone
  | .isSuccess => .flag c.handle.isSuccess
  | .cause => .cause c.handle.cause?
  | .cancel => .flag false
  | .isCancelled => .flag false
  | .query => .text c.query
  | .describe => .text c.describe

/-! ## The agenda -/

/-- Something to be done. -/
inductive Frame (α : Type) where
  | perform (s : Step α)
  /-- Reports the last answer under a label, also if it was a panic. -/
  | report (label : String)
  /-- Runs listeners of the cell, whose handle is done. -/
  | notify (cell : Nat) (due : List (Listener α))
  | give (a : Answer α)
  | panic (text : String)

/-- A run of a program. -/
structure Run (α : Type) where
  world : World α
  agenda : List (Frame α)
  answer : Answer α := .nothing
  events : List (Event α) := []

/-- The frames of the steps of a listener, numbered from `i`. -/
def frames (name : String) : (i : Nat) → List (Step α) → List (Frame α)
  | _, [] => []
  | i, s :: rest => .perform s :: .report s!"{name}/{i}" :: frames name (i + 1) rest

/-- The agenda from the next frame on that catches a panic. -/
def unwind : List (Frame α) → List (Frame α)
  | [] => []
  | .report label :: rest => .report label :: rest
  | _ :: rest => unwind rest

namespace Step

/-- Carries a step out: the new world, and what has to be done before anything else. -/
def carryOut (w : World α) : Step α → World α × List (Frame α)
  | create query =>
    let (w, _, h) := w.create query
    (w, [.give (.number h)])
  | copy h => match w.handles[h]? with
    | none => (w, [.give .nothing])
    | some n => ({ w with handles := w.handles ++ [n] }, [.give (.number w.handles.length)])
  | map h f => match w.find? h with
    | none => (w, [.give .nothing])
    | some (n, cell) =>
      let (w, target, number) := w.create cell.query
      let (handle, due) := cell.handle.listen (.forward target f)
      (w.setHandle n cell handle, [.notify n due, .give (.number number)])
  | complete h o strict => match w.find? h with
    | none => (w, [.give .nothing])
    | some (n, cell) => match cell.handle.complete? o with
      | some (handle, due) => (w.setHandle n cell handle, [.notify n due, .give .completed])
      | none => (w, [if strict then .panic doubleCompletion else .give .refused])
  | ask h q => match w.find? h with
    | none => (w, [.give .nothing])
    | some (_, cell) => (w, [.give (cell.ask q)])
  | same h other => (w, [.give (.flag (w.handles[h]? == w.handles[other]?))])
  | listen h name body panics => match w.find? h with
    | none => (w, [.give .nothing])
    | some (n, cell) =>
      let (handle, due) := cell.handle.listen (.observe name body panics)
      (w.setHandle n cell handle, [.notify n due, .give .nothing])
  | await h => match w.find? h with
    | none => (w, [.give .nothing])
    | some (n, _) =>
      ({ w with waiters := w.waiters ++ [{ cell := n }] }, [.give (.number w.waiters.length)])
  | join number => match w.waiters[number]? with
    | none => (w, [.give .notReady])
    | some waiter => match w.cells[waiter.cell]? with
      | none => (w, [.give .notReady])
      | some cell =>
        if waiter.joined || !cell.handle.isDone then (w, [.give .notReady])
        else
          ({ w with waiters := w.waiters.set number { waiter with joined := true } },
            [.give (.outcome cell.handle.outcome)])

end Step

/-- Runs a listener of a cell: the new world, its report, and what has to be done before the
listeners after it. -/
def Listener.carryOut (w : World α) (n : Nat) :
    Listener α → World α × List (Event α) × List (Frame α)
  | observe name body panics =>
    let seen := w.cells[n]?.bind (·.handle.outcome)
    let ending := if panics then [.panic s!"listener {name} panicked"] else []
    (w, [.heard name seen], frames name 0 body ++ ending)
  | forward target f =>
    match w.cells[n]?.bind (·.handle.outcome), w.cells[target]? with
    | some o, some cell => match cell.handle.complete? (o.bind f) with
      | some (handle, due) => (w.setHandle target cell handle, [], [.notify target due])
      | none => (w, [], [.panic doubleCompletion])
    | _, _ => (w, [], [])

namespace Run

/-- Takes the most urgent frame off the agenda and does it. -/
def next (r : Run α) : Run α :=
  match r.agenda with
  | [] => r
  | .perform s :: rest =>
    let (w, todo) := s.carryOut r.world
    { r with world := w, agenda := todo ++ rest }
  | .report label :: rest =>
    { r with agenda := rest, events := r.events ++ [.answered label r.answer] }
  | .notify _ [] :: rest => { r with agenda := rest }
  | .notify n (l :: due) :: rest =>
    let (w, reports, todo) := l.carryOut r.world n
    { r with world := w, agenda := todo ++ .notify n due :: rest, events := r.events ++ reports }
  | .give a :: rest => { r with agenda := rest, answer := a }
  | .panic text :: rest => { r with agenda := unwind rest, answer := .panicked text }

/-- Does at most `fuel` frames. -/
def runFor : (fuel : Nat) → Run α → Run α
  | 0, r => r
  | fuel + 1, r => match r.agenda with
    | [] => r
    | _ => runFor fuel r.next

end Run

/-! ## Weights -/

/-- The weight of listeners together. -/
def Listener.totalWeight (ls : List (Listener α)) : Nat := sumOf Listener.weight ls

/-- The weight of a frame. -/
def Frame.weight : Frame α → Nat
  | perform s => s.weight
  | notify _ due => Listener.totalWeight due + 1
  | _ => 1

/-- The weight of frames together. -/
def Frame.totalWeight (agenda : List (Frame α)) : Nat := sumOf Frame.weight agenda

/-- The weight of the listeners registered in a world. -/
def World.weight (w : World α) : Nat :=
  sumOf (fun c => Listener.totalWeight c.handle.listeners) w.cells

/-- The weight of all that is registered or to be done. -/
def Run.weight (r : Run α) : Nat := r.world.weight + Frame.totalWeight r.agenda

/-- Runs one step of a program, with all listeners that run because of it. -/
def World.perform (w : World α) (s : Step α) : World α × Answer α × List (Event α) :=
  let r : Run α := { world := w, agenda := [.perform s] }
  let r := Run.runFor r.weight r
  (r.world, r.answer, r.events)

/-! ## Derived values -/

/-- What a derived handle makes of a value of 64 bits, which wraps around: `v · factor + summand`,
or a failure for values below a bound. -/
structure Transform where
  factor : Int64 := 1
  summand : Int64 := 0
  failBelow : Option (Int64 × Cause) := none

/-- Applies a transform to a value. -/
def Transform.apply (t : Transform) (v : Int64) : Outcome Int64 :=
  match t.failBelow with
  | some (bound, c) => if v < bound then .error c else .ok (v * t.factor + t.summand)
  | none => .ok (v * t.factor + t.summand)

end StoreClient.Program
