import StoreClient.Proofs.Batch.Preservation

/-!
# Interrupted batches

A batch fails only if it is interrupted (`Valid.failed_iff`), and it is interrupted by a move at
which dispatching `stops` (`Valid.interrupted_step`). From then on nothing is handled and the
failure stays (`Valid.run_of_interrupted`); what was submitted before still takes its answers
(`Step.operation`).
-/

namespace StoreClient.Batch

variable {σ : Signature} {commands : List (Command σ)} {b : Batch σ}

/-! ## Runs -/

theorem run_append (b : Batch σ) (ms ms' : List Move) :
    (b.run (ms ++ ms')).1 = ((b.run ms).1.run ms').1 := by
  induction ms generalizing b with
  | nil => rfl
  | cons m ms ih => exact ih (b.perform m).1

@[simp] theorem limit_run (b : Batch σ) (ms : List Move) : (b.run ms).1.limit = b.limit := by
  induction ms generalizing b with
  | nil => rfl
  | cons m ms ih => exact (ih (b.perform m).1).trans (limit_perform b m)

theorem notices_run_append (b : Batch σ) (ms ms' : List Move) :
    (b.run (ms ++ ms')).2 = (b.run ms).2 ++ ((b.run ms).1.run ms').2 := by
  induction ms generalizing b with
  | nil => rfl
  | cons m ms ih =>
    simp only [List.cons_append, run, ih, List.append_assoc]

/-! ## Where batches are interrupted -/

theorem interrupted_interrupt (b : Batch σ) : b.interrupt.1.interrupted = true := by
  unfold interrupt
  dsimp only
  split <;> rfl

theorem interrupted_count (b : Batch σ) (index : Nat) :
    (b.count index).1.interrupted = b.interrupted := by
  unfold count complete
  dsimp only
  split
  · split <;> rfl
  · rfl

theorem interrupted_watch (b : Batch σ) (index : Nat) :
    (b.watch index).interrupted = b.interrupted := by
  unfold watch
  split
  · rfl
  · dsimp only
    split <;> rfl

namespace Valid

/-- A move interrupts a batch if dispatching stops. -/
theorem interrupted_step (h : Valid commands b) {m : Move} {r : Batch σ × List Notice}
    (hs : Step b m r) : r.1.interrupted = (b.interrupted || b.stops m) := by
  cases hs with
  | stop hc hs => rw [interrupted_interrupt, hs, Bool.or_true]
  | finish hc hl hr => exact absurd hr (h.rest_ne_nil hc)
  | wait hc hl hr ht =>
    have : ¬ maxPermits < b.limit := Nat.not_lt.2 hl
    simp [stops, this]
  | handle hc hl hr ht =>
    have : ¬ maxPermits < b.limit := Nat.not_lt.2 hl
    simp [stops, this, handle_fields]
  | watch hc => simp [stops, hc, interrupted_watch]
  | rest hr hs => simp [stops, hr]
  | keep hc => simp [stops, hc]
  | count he hs => simp [stops, interrupted_count, setEntry]
  | answer | report | collect | release => simp [stops, setEntry]
  | unanswered | still => simp [stops]
  | listen => simp [stops, Batch.listen]

/-- A batch fails if it is interrupted, and for no other reason. -/
theorem failed_iff (h : Valid commands b) :
    (∃ c, b.aggregate.outcome = some (.error c)) ↔ b.interrupted = true := by
  constructor
  · rintro ⟨c, hc⟩
    cases hi : b.interrupted with
    | true => rfl
    | false =>
      rcases Nat.eq_zero_or_pos b.remaining with hr | hr
      · rw [h.completed hi hr] at hc
        cases hc
      · rw [h.pending hi hr] at hc
        cases hc
  · intro hi
    exact ⟨_, (h.interrupted hi).2.2⟩

/-- A move of a batch that was interrupted neither handles a command nor changes the outcome. -/
theorem perform_of_interrupted (h : Valid commands b) (hi : b.interrupted = true) (m : Move) :
    (b.perform m).1.interrupted = true ∧
      (b.perform m).1.entries.length = b.entries.length ∧
      (b.perform m).1.aggregate.outcome = b.aggregate.outcome := by
  obtain ⟨hc, hl, ho⟩ := h.interrupted hi
  have hi' : (b.perform m).1.interrupted = true := by
    rw [h.interrupted_step (step_perform b m), hi, Bool.true_or]
  have hlen : (b.perform m).1.entries.length = b.entries.length := by
    have hm : b.handles m = false := by
      cases m with
      | advance halted ordinal => simp [handles, hc]
      | _ => rfl
    rw [length_perform, hm]
    rfl
  exact ⟨hi', hlen, ((step_perform b m).outcome_of_some ho).trans ho.symm⟩

/-- Nor do any moves. -/
theorem run_of_interrupted (h : Valid commands b) (hi : b.interrupted = true) (ms : List Move) :
    (b.run ms).1.interrupted = true ∧
      (b.run ms).1.entries.length = b.entries.length ∧
      (b.run ms).1.aggregate.outcome = b.aggregate.outcome := by
  induction ms generalizing b with
  | nil => exact ⟨hi, rfl, rfl⟩
  | cons m ms ih =>
    obtain ⟨hi', hlen, ho⟩ := h.perform_of_interrupted hi m
    obtain ⟨hi'', hlen', ho'⟩ := ih (h.perform m) hi'
    exact ⟨hi'', hlen'.trans hlen, ho'.trans ho⟩

/-- A batch whose commands were all handled is not interrupted any more. -/
theorem run_of_length_eq (h : Valid commands b) (hi : b.interrupted = false)
    (hl : b.entries.length = commands.length) (ms : List Move) :
    (b.run ms).1.interrupted = false ∧ (b.run ms).1.entries.length = commands.length := by
  induction ms generalizing b with
  | nil => exact ⟨hi, hl⟩
  | cons m ms ih =>
    have hr : b.control ≠ .ready := fun hc => Nat.ne_of_lt (h.ready hc) hl
    have hs : b.stops m = false := by
      cases m with
      | advance halted ordinal => simp [stops, hr]
      | abandon => simp [stops, hr]
      | _ => rfl
    have hi' : (b.perform m).1.interrupted = false := by
      rw [h.interrupted_step (step_perform b m), hi, hs]
      rfl
    have hl' : (b.perform m).1.entries.length = commands.length := by
      have hle := (h.perform m).length_le
      rw [length_perform] at hle ⊢
      omega
    exact ih (h.perform m) hi' hl'

end Valid

/-! ## Operations -/

/-- The answers that moves give to the operation at a position. -/
def answersTo (index : Nat) (ms : List Move) : List Answer :=
  ms.filterMap fun
    | .answer i a => if i = index then some a else none
    | _ => none

/-- A step gives to an operation what the move answers, and does nothing else to it. -/
theorem Step.operation {m : Move} {r : Batch σ × List Notice} (hs : Step b m r) {index : Nat}
    {e : Entry σ} (he : b.entries[index]? = some e) :
    ∃ e', r.1.entries[index]? = some e' ∧
      e'.operation = e.operation.map fun op => (op.answerAll (answersTo index [m])).1 := by
  have hnone : e.operation = e.operation.map fun op => (op.answerAll []).1 := by
    cases e.operation <;> rfl
  -- a listener changes nothing but the stage of its entry
  have hstage : ∀ {n : Nat} {x : Entry σ} (s : Stage), b.entries[n]? = some x →
      ∃ e', (b.entries.set n { x with stage := s })[index]? = some e' ∧
        e'.operation = e.operation.map fun op => (op.answerAll []).1 := by
    intro n x s hx
    obtain ⟨z, hz, ⟨-, rfl, rfl⟩ | ⟨-, rfl⟩⟩ := exists_getElem?_set { x with stage := s } hx he
    · exact ⟨_, hz, hnone⟩
    · exact ⟨_, hz, hnone⟩
  cases hs with
  | stop hc hs =>
    rw [(interrupt_fields _).2.2]
    have hm : answersTo index [m] = [] := by
      cases m with
      | answer i a => simp [stops] at hs
      | _ => rfl
    rw [hm]
    exact ⟨e, he, hnone⟩
  | handle hc hl hr ht =>
    rw [handle_fields]
    exact ⟨e, by rwa [List.getElem?_append_left (List.getElem?_eq_some_iff.1 he).1], hnone⟩
  | @watch halted ordinal n hc =>
    unfold Batch.watch
    dsimp only
    split
    · exact ⟨e, he, hnone⟩
    · next x hx =>
      split
      · exact hstage .due hx
      · exact hstage .awaited hx
  | @answer n a x hx =>
    obtain ⟨z, hz, ⟨rfl, rfl, rfl⟩ | ⟨hn, rfl⟩⟩ := exists_getElem?_set (x.answer a).1 hx he
    · refine ⟨_, hz, ?_⟩
      rw [Entry.operation_answer]
      simp [answersTo, Operation.answerAll]
    · refine ⟨_, hz, ?_⟩
      rw [show answersTo index [.answer n a] = [] by simp [answersTo, hn]]
      exact hnone
  | @unanswered n a hx =>
    have hn : n ≠ index := by
      rintro rfl
      rw [he] at hx
      cases hx
    refine ⟨e, he, ?_⟩
    rw [show answersTo index [.answer n a] = [] by simp [answersTo, hn]]
    exact hnone
  | report hx hs => exact hstage _ hx
  | collect hx hs => exact hstage _ hx
  | release hx hs => exact hstage _ hx
  | count hx hs =>
    rw [(count_fields _ _).2.2]
    exact hstage _ hx
  | finish | wait | rest | still | keep | listen => exact ⟨e, he, hnone⟩

end StoreClient.Batch
