import StoreClient.Notice

/-!
# Observers

An observer is told of the events of batches. It may record them, log them, ignore them, or pass
them on to other observers in the order of their registration.
-/

namespace StoreClient

/-- Someone who is told of the events of batches. -/
inductive Observer where
  | silent
  /-- Records events under a number. -/
  | recording (id : Nat)
  /-- Logs events. -/
  | logging
  /-- Passes events on. -/
  | all (children : List Observer)

namespace Observer

/-- What observers do about an event. -/
inductive Sighting where
  | recorded (id : Nat) (e : Batch.Event)
  | logged (e : Log.Event)
  deriving DecidableEq, Repr

mutual

/-- Tells an observer of an event. -/
def notify (e : Batch.Event) : Observer → List Sighting
  | silent => []
  | recording id => [.recorded id e]
  | logging => [.logged (.batch e)]
  | all children => notifyAll e children

/-- Tells several observers of an event, in order. -/
def notifyAll (e : Batch.Event) : List Observer → List Sighting
  | [] => []
  | o :: rest => notify e o ++ notifyAll e rest

end

/-- Registers an observer after those that an observer passes events on to. -/
def add (o : Observer) : Observer → Observer
  | all children => all (children ++ [o])
  | other => all [other, o]

end Observer

end StoreClient
