import StoreClient.Handle
import StoreClient.Text.Quoted

/-!
# Programs on handles

What callers do with result handles, as data: they create handles, derive one from another, complete
them, ask about them, wait for them and register listeners. A listener is a program itself, which
runs when its handle is done, and it may do all of this again.

The weight of a program bounds how long it runs. It counts what a listener will do when it runs, so
the weight of everything registered and everything still to be done only ever shrinks.
-/

namespace StoreClient.Program

/-! ## Syntax -/

/-- What can be asked about a handle. -/
inductive Question where
  | outcome
  | isDone
  | isSuccess
  | cause
  /-- To cancel what is under way, which cannot be done. -/
  | cancel
  | isCancelled
  | query
  /-- The handle as a text. -/
  | describe
  deriving DecidableEq, Repr

/-- One step of a program. Handles and waiters are numbered in the order of their creation. -/
inductive Step (α : Type) where
  | create (query : String)
  /-- Another number for the same handle. -/
  | copy (h : Nat)
  /-- A new handle that is completed with what `f` makes of the value of the handle. -/
  | map (h : Nat) (f : α → Outcome α)
  /-- Completes a handle. To complete one twice is a panic if `strict`, else a refusal. -/
  | complete (h : Nat) (o : Outcome α) (strict : Bool)
  | ask (h : Nat) (q : Question)
  /-- Whether two numbers belong to the same handle. -/
  | same (h other : Nat)
  /-- Registers a listener that reports under its name, runs its steps, and then may panic. -/
  | listen (h : Nat) (name : String) (body : List (Step α)) (panics : Bool)
  /-- Starts a waiter, which waits for the handle. -/
  | await (h : Nat)
  /-- Fetches what a waiter got, once. -/
  | join (w : Nat)

/-- A listener. -/
inductive Listener (α : Type) where
  | observe (name : String) (body : List (Step α)) (panics : Bool)
  /-- Completes the derived handle in cell `target`. -/
  | forward (target : Nat) (f : α → Outcome α)

/-! ## Weights -/

mutual

/-- The weight of a step. -/
def Step.weight {α : Type} : Step α → Nat
  | .listen _ _ body _ => weights body + 5
  | .map _ _ => 5
  | .complete _ _ _ => 3
  | _ => 2

/-- The weight of the steps of a listener, each with its report. -/
def weights {α : Type} : List (Step α) → Nat
  | [] => 0
  | s :: rest => s.weight + 1 + weights rest

end

/-- The weight of a listener. -/
def Listener.weight {α : Type} : Listener α → Nat
  | observe _ body _ => weights body + 2
  | forward _ _ => 2

end StoreClient.Program
