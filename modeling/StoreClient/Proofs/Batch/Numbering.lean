import StoreClient.Proofs.Batch.Events

/-!
# The number of a batch does not matter

A batch that is given another number makes the same moves, and its notices are the same but for that
number (`perform_numbered`). The numbers of its requests, too, matter only to the notices: they may
be exchanged for others.
-/

namespace StoreClient

/-! ## Other numbers -/

/-- The event as one of the batch with the number `id`. -/
def Batch.Event.renumber (id : Nat) : Batch.Event → Batch.Event
  | .started _ total limit => .started id total limit
  | .dispatched _ index inFlight => .dispatched id index inFlight
  | .itemDone _ index cause => .itemDone id index cause
  | .completed _ collected => .completed id collected
  | .interrupted _ handled total => .interrupted id handled total

namespace Notice

/-- The notice as one of the batch with the number `id`, with another number for a request. -/
def renumber (id : Nat) (ordinal : Nat → Nat) : Notice → Notice
  | .logged (.noRuntime _ total) => .logged (.noRuntime id total)
  | .logged (.batch e) => .logged (.batch (e.renumber id))
  | .observed e => .observed (e.renumber id)
  | .submitted n request => .submitted (ordinal n) request
  | n => n

variable {id : Nat} {ordinal : Nat → Nat}

theorem IsLocal.renumber {n : Notice} (h : n.IsLocal) : n.renumber id ordinal = n := by
  cases n with
  | logged e =>
    cases e with
    | noRuntime batch total => cases h
    | batch e => cases h
    | _ => rfl
  | heard report => rfl
  | observed e => cases h
  | submitted n request => cases h

/-- Local notices tell nothing of batches. -/
theorem AreLocal.map_renumber {ns : List Notice} (h : AreLocal ns) :
    ns.map (renumber id ordinal) = ns := by
  refine (List.map_congr_left fun n hn => (h n hn).renumber).trans ?_
  exact List.map_id' ns

@[simp] theorem map_renumber_ofListeners (due : List Listener) (success : Bool) :
    (ofListeners due success).map (renumber id ordinal) = ofListeners due success :=
  (areLocal_ofListeners due success).map_renumber

end Notice

namespace Batch

variable {σ : Signature}

/-- The batch with another number. -/
def numbered (id : Nat) (b : Batch σ) : Batch σ := { b with id := id }

/-- The move with another number for a request. -/
def Move.renumber (ordinal : Nat → Nat) : Move → Move
  | .advance halted n => .advance halted (ordinal n)
  | m => m

/-- What comes of a move, for a batch with another number. -/
def renumbered (id : Nat) (ordinal : Nat → Nat) (r : Batch σ × List Notice) :
    Batch σ × List Notice :=
  (r.1.numbered id, r.2.map (Notice.renumber id ordinal))

/-! ## Moves -/

section Moves

variable (b : Batch σ) (id : Nat) (ordinal : Nat → Nat)

theorem complete_numbered : (b.numbered id).complete = renumbered id ordinal b.complete := by
  unfold complete numbered renumbered
  dsimp only
  split <;> simp [numbered, Notice.renumber, Event.renumber]

theorem interrupt_numbered : (b.numbered id).interrupt = renumbered id ordinal b.interrupt := by
  unfold interrupt numbered renumbered total
  dsimp only
  split <;> simp [numbered, Notice.renumber, Event.renumber]

theorem abandon_numbered : (b.numbered id).abandon = renumbered id ordinal b.abandon := by
  unfold abandon
  rw [show (b.numbered id).control = b.control from rfl]
  split
  · exact interrupt_numbered { b with control := .ended, permits := b.permits.leave } id ordinal
  · rfl

theorem count_numbered (index : Nat) :
    (b.numbered id).count index = renumbered id ordinal (b.count index) := by
  unfold count
  rw [show (b.numbered id).remaining = b.remaining from rfl]
  dsimp only
  split
  · exact complete_numbered { b with
      remaining := b.remaining - 1
      control := if b.control = .noting index then b.onward else b.control } id ordinal
  · rfl

theorem proceed_numbered (index : Nat) :
    (b.numbered id).proceed index = renumbered id ordinal (b.proceed index) := by
  unfold proceed
  rw [show (b.numbered id).entries = b.entries from rfl]
  split
  · rfl
  · next e he =>
    split
    · rfl
    · rfl
    · rfl
    · exact count_numbered (b.setEntry index { e with stage := .counted }) id ordinal index
    · rfl

theorem answer_numbered (index : Nat) (a : Answer) :
    (b.numbered id).answer index a = renumbered id ordinal (b.answer index a) := by
  unfold Batch.answer
  rw [show (b.numbered id).entries = b.entries from rfl]
  split
  · rfl
  · next e he =>
    dsimp only [renumbered]
    rw [(e.areLocal_answer a).map_renumber]
    rfl

theorem handle_numbered (n : Nat) (c : Command σ) :
    (b.numbered id).handle (ordinal n) c = renumbered id ordinal (b.handle n c) := by
  unfold handle
  dsimp only
  split <;> rfl

theorem watch_numbered (index : Nat) :
    (b.numbered id).watch index = (b.watch index).numbered id := by
  unfold watch
  rw [show (b.numbered id).entries = b.entries from rfl]
  split
  · rfl
  · dsimp only
    split <;> rfl

theorem next_numbered (halted : Bool) (n : Nat) :
    (b.numbered id).next halted (ordinal n) = renumbered id ordinal (b.next halted n) := by
  unfold next
  rw [show (b.numbered id).limit = b.limit from rfl, show (b.numbered id).rest = b.rest from rfl,
    show (b.numbered id).permits = b.permits from rfl]
  split
  · exact abandon_numbered b id ordinal
  · split
    · rfl
    · next c rest hr =>
      split
      · exact abandon_numbered b id ordinal
      · split
        · rfl
        · next permits ht =>
          exact handle_numbered { b with permits := permits, rest := rest } id ordinal n c

theorem listen_numbered (l : Listener) :
    (b.numbered id).listen l = renumbered id ordinal (b.listen l) := by
  unfold listen renumbered
  dsimp only
  rw [Notice.map_renumber_ofListeners]
  rfl

/-- **A batch with another number does the same under that number.** -/
theorem perform_numbered (m : Move) : (b.numbered id).perform (m.renumber ordinal) =
    renumbered id ordinal (b.perform m) := by
  cases m with
  | advance halted n =>
    simp only [Move.renumber, perform, advance]
    rw [show (b.numbered id).control = b.control from rfl]
    split
    · exact next_numbered b id ordinal halted n
    · rw [watch_numbered]
      rfl
    · rfl
  | answer index a => exact answer_numbered b id ordinal index a
  | proceed index => exact proceed_numbered b id ordinal index
  | abandon => exact abandon_numbered b id ordinal
  | listen l => exact listen_numbered b id ordinal l

end Moves

/-- Whether a move handles a command does not depend on numbers. -/
theorem handles_numbered (b : Batch σ) (id : Nat) (ordinal : Nat → Nat) (m : Move) :
    (b.numbered id).handles (m.renumber ordinal) = b.handles m := by
  cases m <;> rfl

end Batch

end StoreClient
