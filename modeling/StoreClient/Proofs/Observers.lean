import StoreClient.Observer

/-!
# What observers see

Observers that pass events on may be nested in any way. What comes of an event is what the `leaves`
make of it, in the order of their registration (`notify_eq`). So every recorder sees every event
once for each time that it is registered, and the events in their order (`recorded_sees`).
-/

namespace StoreClient.Observer

/-! ## Leaves -/

/-- An observer that passes nothing on. -/
inductive Leaf where
  | silent
  | recording (id : Nat)
  | logging
  deriving DecidableEq

/-- What a leaf does about an event. -/
def Leaf.notify (e : Batch.Event) : Leaf → List Sighting
  | silent => []
  | recording id => [.recorded id e]
  | logging => [.logged (.batch e)]

mutual

/-- The leaves of an observer, in the order of their registration. -/
def leaves : Observer → List Leaf
  | silent => [.silent]
  | recording id => [.recording id]
  | logging => [.logging]
  | all children => leavesAll children

/-- The leaves of several observers. -/
def leavesAll : List Observer → List Leaf
  | [] => []
  | o :: rest => leaves o ++ leavesAll rest

end

/-- What an observer that is told of events does about them. -/
def sees (o : Observer) (told : List Batch.Event) : List Sighting := told.flatMap (notify · o)

/-- The event that is recorded under a number. -/
def Sighting.recorded? (n : Nat) : Sighting → Option Batch.Event
  | recorded id e => if id = n then some e else none
  | logged _ => none

mutual

/-- An event is passed on to every leaf. -/
theorem notify_eq (e : Batch.Event) :
    ∀ o : Observer, notify e o = o.leaves.flatMap (Leaf.notify e)
  | silent => rfl
  | recording _ => rfl
  | logging => rfl
  | all children => notifyAll_eq e children

theorem notifyAll_eq (e : Batch.Event) :
    ∀ l : List Observer, notifyAll e l = (leavesAll l).flatMap (Leaf.notify e)
  | [] => rfl
  | o :: rest => by
    rw [notifyAll, leavesAll, List.flatMap_append, notify_eq e o, notifyAll_eq e rest]

end

/-! ## Recorders -/

theorem recorded_notify (l : List Leaf) (n : Nat) (e : Batch.Event) :
    (l.flatMap (Leaf.notify e)).filterMap (Sighting.recorded? n) =
      List.replicate (l.count (.recording n)) e := by
  induction l with
  | nil => rfl
  | cons x l ih =>
    rw [List.flatMap_cons, List.filterMap_append, ih, List.count_cons]
    cases x with
    | recording id =>
      by_cases hn : id = n
      · simp [Leaf.notify, Sighting.recorded?, hn, List.replicate_succ]
      · simp [Leaf.notify, Sighting.recorded?, hn]
    | silent | logging => simp [Leaf.notify, Sighting.recorded?]

/-- A recorder sees every event as often as it is registered. -/
theorem recorded_sees (o : Observer) (told : List Batch.Event) (n : Nat) :
    (o.sees told).filterMap (Sighting.recorded? n) =
      told.flatMap (List.replicate (o.leaves.count (.recording n))) := by
  have hone : (fun e => (notify e o).filterMap (Sighting.recorded? n)) =
      List.replicate (o.leaves.count (.recording n)) := by
    funext e
    rw [notify_eq, recorded_notify]
  unfold sees
  rw [List.filterMap_flatMap, hone]

/-- So it does of the events of one batch. -/
theorem recorded_sees_batch (o : Observer) (told : List Batch.Event) (n id : Nat) :
    ((o.sees told).filterMap (Sighting.recorded? n)).filter (·.batch = id) =
      (told.filter (·.batch = id)).flatMap
        (List.replicate (o.leaves.count (.recording n))) := by
  rw [recorded_sees]
  induction told with
  | nil => rfl
  | cons e told ih =>
    rw [List.flatMap_cons, List.filter_append, ih, List.filter_replicate, List.filter_cons]
    split <;> rfl

end StoreClient.Observer
