import StoreClient.Proofs.Batch.Preservation

/-!
# Events of a run

Every event that a move of a batch brings carries the number of the batch (`Step.batch_of_event`).
Events of each kind come from one kind of move: that a command was dispatched, from dispatching that
handles it; that an item is done, from the first step of its listener; that the batch is complete,
from the last step of the last one.

Of the other notices, those of requests are kept apart from the local ones (`AreLocal`), which
listeners bring and which tell nothing of batches.
-/

namespace StoreClient

/-- The event that an observer is told by a notice. -/
def Notice.event? : Notice → Option Batch.Event
  | .observed e => some e
  | _ => none

/-- The events among notices, in their order. -/
def Notice.events (ns : List Notice) : List Batch.Event := ns.filterMap Notice.event?

namespace Notice

@[simp] theorem events_nil : events [] = [] := rfl

@[simp] theorem events_append (ns ns' : List Notice) :
    events (ns ++ ns') = events ns ++ events ns' := List.filterMap_append

@[simp] theorem events_observed (e : Batch.Event) (ns : List Notice) :
    events (.observed e :: ns) = e :: events ns := rfl

@[simp] theorem events_submitted (ordinal : Nat) (request : Message) (ns : List Notice) :
    events (.submitted ordinal request :: ns) = events ns := rfl

@[simp] theorem events_logged (e : Log.Event) (ns : List Notice) :
    events (.logged e :: ns) = events ns := rfl

end Notice

/-- The request that the transport is given by a notice. -/
def Notice.request? : Notice → Option Message
  | .submitted _ request => some request
  | _ => none

/-- The requests among notices, in their order. -/
def Notice.requests (ns : List Notice) : List Message := ns.filterMap Notice.request?

namespace Notice

@[simp] theorem requests_nil : requests [] = [] := rfl

@[simp] theorem requests_append (ns ns' : List Notice) :
    requests (ns ++ ns') = requests ns ++ requests ns' := List.filterMap_append

@[simp] theorem requests_observed (e : Batch.Event) (ns : List Notice) :
    requests (.observed e :: ns) = requests ns := rfl

@[simp] theorem requests_submitted (ordinal : Nat) (request : Message) (ns : List Notice) :
    requests (.submitted ordinal request :: ns) = request :: requests ns := rfl

@[simp] theorem requests_logged (e : Log.Event) (ns : List Notice) :
    requests (.logged e :: ns) = requests ns := rfl

/-! ## Local notices -/

/-- The notice is the report of a listener, or a line of the log that names no batch. -/
def IsLocal : Notice → Prop
  | .logged (.noRuntime ..) | .logged (.batch _) | .observed _ | .submitted .. => False
  | .logged _ | .heard _ => True

/-- All of the notices are local. -/
def AreLocal (ns : List Notice) : Prop := ∀ n ∈ ns, n.IsLocal

theorem areLocal_nil : AreLocal [] := by
  intro n hn
  cases hn

theorem areLocal_singleton {n : Notice} (h : n.IsLocal) : AreLocal [n] := by
  intro n' hn
  rwa [List.mem_singleton.1 hn]

theorem AreLocal.append {ns ns' : List Notice} (h : AreLocal ns) (h' : AreLocal ns') :
    AreLocal (ns ++ ns') := by
  intro n hn
  rcases List.mem_append.1 hn with hn | hn
  · exact h n hn
  · exact h' n hn

theorem AreLocal.events {ns : List Notice} (h : AreLocal ns) : events ns = [] := by
  refine List.filterMap_eq_nil_iff.2 fun n hn => ?_
  have hlocal := h n hn
  cases n with
  | observed e => cases hlocal
  | _ => rfl

theorem AreLocal.requests {ns : List Notice} (h : AreLocal ns) : requests ns = [] := by
  refine List.filterMap_eq_nil_iff.2 fun n hn => ?_
  have hlocal := h n hn
  cases n with
  | submitted ordinal request => cases hlocal
  | _ => rfl

/-- Listeners of handles only report. -/
theorem areLocal_ofListeners (due : List Listener) (success : Bool) :
    AreLocal (ofListeners due success) := by
  intro n hn
  obtain ⟨report, -, rfl⟩ := List.mem_map.1 hn
  trivial

@[simp] theorem events_ofListeners (due : List Listener) (success : Bool) :
    events (ofListeners due success) = [] :=
  (areLocal_ofListeners due success).events

@[simp] theorem requests_ofListeners (due : List Listener) (success : Bool) :
    requests (ofListeners due success) = [] :=
  (areLocal_ofListeners due success).requests

end Notice

/-! ## Operations -/

open Notice (AreLocal areLocal_nil areLocal_ofListeners areLocal_singleton)

namespace Operation

variable {σ : Signature}

theorem areLocal_publish (op : Operation σ) (o : Outcome σ.Output) :
    AreLocal (op.publish o).2 := by
  unfold publish
  split
  · exact areLocal_ofListeners _ _
  · exact areLocal_nil

theorem areLocal_judge (op : Operation σ) (code : UInt8) (step : Outcome σ.Reply) :
    AreLocal (op.judge code step).2.2.2 := by
  unfold judge
  split
  · exact areLocal_singleton trivial
  · split
    · exact areLocal_singleton trivial
    · dsimp only
      split
      · dsimp only
        split
        · exact areLocal_nil
        · exact areLocal_singleton trivial
      · exact areLocal_nil

theorem areLocal_condemn (op : Operation σ) (c : Cause) : AreLocal (op.condemn c).2.2 := by
  unfold condemn
  split
  · exact areLocal_singleton trivial
  · exact areLocal_nil

theorem areLocal_settle (op : Operation σ) (code : UInt8) (step : Outcome σ.Reply) :
    AreLocal (op.settle code step).2.2 := by
  have hjudge := areLocal_judge op code step
  unfold settle
  split
  · next h =>
    rw [h] at hjudge
    exact hjudge.append (areLocal_publish _ _)
  · next h =>
    rw [h] at hjudge
    exact hjudge

theorem areLocal_fail (op : Operation σ) (c : Cause) : AreLocal (op.fail c).2.2 := by
  have hcondemn := areLocal_condemn op c
  unfold fail
  split
  · next h =>
    rw [h] at hcondemn
    exact hcondemn.append (areLocal_publish _ _)
  · next h =>
    rw [h] at hcondemn
    exact hcondemn

/-- An operation that is answered logs, and its listeners report. -/
theorem areLocal_answer (op : Operation σ) (a : Answer) : AreLocal (op.answer a).2.2 := by
  cases a with
  | reply m =>
    simp only [answer, receive]
    split
    · exact areLocal_singleton trivial
    · exact areLocal_settle op _ _
  | failure c => exact areLocal_fail op c

end Operation

namespace Batch

variable {σ : Signature}

theorem Entry.areLocal_answer (e : Entry σ) (a : Answer) : AreLocal (e.answer a).2 := by
  unfold Entry.answer
  split
  · exact areLocal_nil
  · exact Operation.areLocal_answer _ a

@[simp] theorem Entry.events_answer (e : Entry σ) (a : Answer) :
    Notice.events (e.answer a).2 = [] :=
  (e.areLocal_answer a).events

@[simp] theorem Entry.requests_answer (e : Entry σ) (a : Answer) :
    Notice.requests (e.answer a).2 = [] :=
  (e.areLocal_answer a).requests

/-! ## Kinds of events -/

/-- The number of a batch that was accepted. -/
def Event.started? : Event → Option Nat
  | .started batch _ _ => some batch
  | _ => none

/-- The position of a command that was dispatched. -/
def Event.dispatched? : Event → Option Nat
  | .dispatched _ index _ => some index
  | _ => none

/-- The position of an item that is done. -/
def Event.itemDone? : Event → Option Nat
  | .itemDone _ index _ => some index
  | _ => none

/-- How many items a complete batch has. -/
def Event.completed? : Event → Option Nat
  | .completed _ collected => some collected
  | _ => none

/-! ## Events of a step -/

/-- The position of the item whose listener takes its first step. -/
def reports (b : Batch σ) : Move → List Nat
  | .proceed index => match b.entries[index]? with
    | some e => if e.stage = .due then [index] else []
    | none => []
  | _ => []

theorem reports_eq_nil {b : Batch σ} {index : Nat}
    (h : ∀ e, b.entries[index]? = some e → e.stage ≠ .due) : b.reports (.proceed index) = [] := by
  simp only [reports]
  split
  · next e he => rw [if_neg (h e he)]
  · rfl

theorem events_complete (b : Batch σ) : Notice.events b.complete.2 =
    if b.aggregate.outcome.isSome then [] else [.completed b.id b.collected.length] := by
  unfold complete
  dsimp only
  cases ho : b.aggregate.outcome with
  | none => simp [Handle.complete?_of_pending ho]
  | some x => simp [(Handle.complete?_eq_none_iff b.aggregate _).2 (by simp [Handle.isDone, ho])]

theorem events_interrupt (b : Batch σ) : Notice.events b.interrupt.2 =
    if b.aggregate.outcome.isSome then [] else [.interrupted b.id b.dispatched b.total] := by
  unfold interrupt
  dsimp only
  cases ho : b.aggregate.outcome with
  | none => simp [Handle.complete?_of_pending ho, total]
  | some x => simp [(Handle.complete?_eq_none_iff b.aggregate _).2 (by simp [Handle.isDone, ho])]

theorem events_count (b : Batch σ) (index : Nat) : Notice.events (b.count index).2 =
    if b.remaining = 1 ∧ b.aggregate.outcome = none then [.completed b.id b.collected.length]
    else [] := by
  unfold count
  dsimp only
  split
  · next hr =>
    rw [events_complete]
    cases b.aggregate.outcome <;> simp [show b.remaining = 1 from hr]
  · next hr => simp [show b.remaining ≠ 1 from hr]

theorem events_handle (b : Batch σ) (ordinal : Nat) (c : Command σ) :
    Notice.events (b.handle ordinal c).2 =
      if c.operation.isOk then
        [.dispatched b.id b.entries.length (b.limit - b.permits.available)]
      else [] := by
  unfold handle
  dsimp only
  split
  · next hop => simp [hop, Except.isOk, Except.toBool]
  · next hop => simp [hop, Except.isOk, Except.toBool]

@[simp] theorem events_listen (b : Batch σ) (l : Listener) :
    Notice.events (b.listen l).2 = [] := by
  simp [listen]

variable {b : Batch σ} {m : Move} {r : Batch σ × List Notice}

/-- Every event of a batch carries its number. -/
theorem Step.batch_of_event (hs : Step b m r) {e : Event} (he : e ∈ Notice.events r.2) :
    e.batch = b.id := by
  cases hs with
  | stop hc hs =>
    rw [events_interrupt] at he
    split at he <;> simp at he
    rw [he]
    rfl
  | handle hc hl hr ht =>
    rw [events_handle] at he
    split at he <;> simp at he
    rw [he]
    rfl
  | count hx hs =>
    rw [events_count] at he
    split at he <;> simp at he
    rw [he]
    rfl
  | report hx hs =>
    simp at he
    rw [he]
    rfl
  | _ => simp at he

/-- A batch is not accepted by its own moves. -/
theorem Step.started_events (hs : Step b m r) :
    (Notice.events r.2).filterMap Event.started? = [] := by
  cases hs with
  | stop hc hs =>
    rw [events_interrupt]
    split <;> rfl
  | handle hc hl hr ht =>
    rw [events_handle]
    split <;> rfl
  | count hx hs =>
    rw [events_count]
    split <;> rfl
  | _ => simp [Event.started?]

/-- A command is announced as dispatched where it is handled, if it makes an operation. -/
theorem Step.dispatched_events (hs : Step b m r) :
    (Notice.events r.2).filterMap Event.dispatched? =
      if b.handles m && b.nextIsOk then [b.entries.length] else [] := by
  cases hs with
  | stop hc hs =>
    rw [events_interrupt, handles_of_stops hs]
    split <;> rfl
  | @handle ordinal permits c rest hc hl hr ht =>
    have hm : b.handles (.advance false ordinal) = true := by simp [handles, hc, hl, hr, ht]
    rw [events_handle, hm]
    simp only [nextIsOk, hr, List.head?_cons, Option.any_some, Bool.true_and]
    split <;> rfl
  | count hx hs =>
    rw [events_count]
    split <;> rfl
  | _ => simp_all [handles, Event.dispatched?]

/-- An item is announced as done where its listener takes its first step. -/
theorem Step.itemDone_events (hs : Step b m r) :
    (Notice.events r.2).filterMap Event.itemDone? = b.reports m := by
  cases hs with
  | stop hc hs =>
    rw [events_interrupt]
    have hm : b.reports m = [] := by
      cases m with
      | proceed index => simp [stops] at hs
      | _ => rfl
    rw [hm]
    split <;> rfl
  | handle hc hl hr ht =>
    rw [events_handle]
    split <;> rfl
  | count hx hs =>
    rw [events_count]
    simp only [reports, hx, hs, reduceCtorEq, if_false]
    split <;> rfl
  | still hs =>
    refine (reports_eq_nil fun e he hd => ?_).symm
    simpa [hd, Stage.isRunning] using hs e he
  | _ => simp_all [reports, Event.itemDone?]

end Batch

end StoreClient
