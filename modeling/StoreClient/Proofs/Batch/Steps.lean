import StoreClient.Batch

/-!
# What a move can do

`Step b m r` lists all that can come of the move `m` of the batch `b`, with what is known then, and
`step_perform` says that the list is complete. What every move does, or never does, is a case
analysis of `Step`.

A move leaves the number and the limit of a batch (`id_perform`, `limit_perform`). Only dispatching
that `handles` a command adds an entry (`length_perform`).
-/

namespace StoreClient.Batch

variable {σ : Signature}

/-- Whether dispatching finds before the next command that it has to stop. -/
def stops (b : Batch σ) : Move → Bool
  | .advance halted _ => decide (b.control = .ready) && (halted || decide (maxPermits < b.limit))
  | .abandon => decide (b.control = .ready)
  | _ => false

/-- Whether dispatching handles the next command. -/
def handles (b : Batch σ) : Move → Bool
  | .advance halted _ => decide (b.control = .ready) && !halted && decide (b.limit ≤ maxPermits) &&
      !b.rest.isEmpty && b.permits.take.2
  | _ => false

/-- Whether the next command makes an operation. -/
def nextIsOk (b : Batch σ) : Bool := b.rest.head?.any (·.operation.isOk)

/-- What can come of a move. -/
inductive Step (b : Batch σ) : Move → Batch σ × List Notice → Prop where
  /-- Dispatching stops before the next command. -/
  | stop {m : Move} (hc : b.control = .ready) (hs : b.stops m = true) :
      Step b m { b with control := .ended, permits := b.permits.leave }.interrupt
  /-- There is no next command. -/
  | finish {halted : Bool} {ordinal : Nat} (hc : b.control = .ready) (hl : b.limit ≤ maxPermits)
      (hr : b.rest = []) :
      Step b (.advance halted ordinal) ({ b with control := .ended }, [])
  /-- Dispatching has to wait for a permit. -/
  | wait {ordinal : Nat} {permits : Permits} (hc : b.control = .ready) (hl : b.limit ≤ maxPermits)
      (hr : b.rest ≠ []) (ht : b.permits.take = (permits, false)) :
      Step b (.advance false ordinal) ({ b with permits := permits }, [])
  /-- Dispatching handles the next command. -/
  | handle {ordinal : Nat} {permits : Permits} {c : Command σ} {rest : List (Command σ)}
      (hc : b.control = .ready) (hl : b.limit ≤ maxPermits) (hr : b.rest = c :: rest)
      (ht : b.permits.take = (permits, true)) :
      Step b (.advance false ordinal)
        ({ b with permits := permits, rest := rest }.handle ordinal c)
  /-- Dispatching registers the listener of the entry that it submitted. -/
  | watch {halted : Bool} {ordinal index : Nat} (hc : b.control = .submitting index) :
      Step b (.advance halted ordinal) (b.watch index, [])
  /-- Dispatching runs a listener, or has ended. -/
  | rest {halted : Bool} {ordinal : Nat} (hr : b.control ≠ .ready)
      (hs : ∀ index, b.control ≠ .submitting index) : Step b (.advance halted ordinal) (b, [])
  | answer {index : Nat} {a : Answer} {e : Entry σ} (he : b.entries[index]? = some e) :
      Step b (.answer index a) (b.setEntry index (e.answer a).1, (e.answer a).2)
  | unanswered {index : Nat} {a : Answer} (he : b.entries[index]? = none) :
      Step b (.answer index a) (b, [])
  /-- A listener tells the observer. -/
  | report {index : Nat} {e : Entry σ} (he : b.entries[index]? = some e) (hs : e.stage = .due) :
      Step b (.proceed index) (b.setEntry index { e with stage := .reported },
        [.observed (.itemDone b.id index e.cause?)])
  /-- A listener collects its item. -/
  | collect {index : Nat} {e : Entry σ} (he : b.entries[index]? = some e)
      (hs : e.stage = .reported) :
      Step b (.proceed index) ({ b.setEntry index { e with stage := .collected } with
        collected := b.collected ++ if b.interrupted then [] else (e.item? index).toList }, [])
  /-- A listener gives its permit back. -/
  | release {index : Nat} {e : Entry σ} (he : b.entries[index]? = some e)
      (hs : e.stage = .collected) :
      Step b (.proceed index) ({ b.setEntry index { e with stage := .released } with
        permits := b.permits.giveBack }, [])
  /-- A listener counts its item. -/
  | count {index : Nat} {e : Entry σ} (he : b.entries[index]? = some e)
      (hs : e.stage = .released) :
      Step b (.proceed index) ((b.setEntry index { e with stage := .counted }).count index)
  /-- There is no listener that runs. -/
  | still {index : Nat} (hs : ∀ e, b.entries[index]? = some e → e.stage.isRunning = false) :
      Step b (.proceed index) (b, [])
  /-- Dispatching cannot be given up at this point. -/
  | keep (hc : b.control ≠ .ready) : Step b .abandon (b, [])
  | listen {l : Listener} : Step b (.listen l) (b.listen l)

theorem step_next (b : Batch σ) (hc : b.control = .ready) (halted : Bool) (ordinal : Nat) :
    Step b (.advance halted ordinal) (b.next halted ordinal) := by
  have habandon : b.abandon =
      { b with control := .ended, permits := b.permits.leave }.interrupt := by
    simp [abandon, hc]
  unfold next
  split
  · next hl =>
    rw [habandon]
    exact .stop hc (by simp [stops, hc, hl])
  · next hl =>
    have hl : b.limit ≤ maxPermits := Nat.not_lt.1 hl
    split
    · next hr => exact .finish hc hl hr
    · next c rest hr =>
      split
      · next hh =>
        rw [habandon]
        exact .stop hc (by simp [stops, hc, hh])
      · next hh =>
        obtain rfl : halted = false := by simpa using hh
        split
        · next ht => exact .wait hc hl (by simp [hr]) ht
        · next ht => exact .handle hc hl hr ht

theorem step_proceed (b : Batch σ) (index : Nat) :
    Step b (.proceed index) (b.proceed index) := by
  unfold proceed
  split
  · next he => exact .still (by simp [he])
  · next e he =>
    split
    · next hs => exact .report he hs
    · next hs => exact .collect he hs
    · next hs => exact .release he hs
    · next hs => exact .count he hs
    · next hd hr hc hl =>
      refine .still fun e' he' => ?_
      obtain rfl : e = e' := by simpa [he] using he'
      cases hs : e.stage with
      | due => exact absurd hs hd
      | reported => exact absurd hs hr
      | collected => exact absurd hs hc
      | released => exact absurd hs hl
      | unwatched | awaited | counted => rfl

/-- Nothing else can come of a move. -/
theorem step_perform (b : Batch σ) (m : Move) : Step b m (b.perform m) := by
  cases m with
  | advance halted ordinal =>
    simp only [perform, advance]
    split
    · next hc => exact step_next b hc halted ordinal
    · next hc => exact .watch hc
    · next hr hs => exact .rest hr hs
  | answer index a =>
    simp only [perform, Batch.answer]
    split
    · next he => exact .unanswered he
    · next he => exact .answer he
  | proceed index => exact step_proceed b index
  | abandon =>
    simp only [perform, abandon]
    split
    · next hc => exact .stop hc (by simp [stops, hc])
    · next hc => exact .keep hc
  | listen l => exact .listen

/-! ## What the parts of moves leave -/

theorem complete_fields (b : Batch σ) : b.complete.1.id = b.id ∧ b.complete.1.limit = b.limit ∧
    b.complete.1.entries = b.entries := by
  unfold complete
  dsimp only
  split <;> exact ⟨rfl, rfl, rfl⟩

theorem interrupt_fields (b : Batch σ) : b.interrupt.1.id = b.id ∧
    b.interrupt.1.limit = b.limit ∧ b.interrupt.1.entries = b.entries := by
  unfold interrupt
  dsimp only
  split <;> exact ⟨rfl, rfl, rfl⟩

theorem count_fields (b : Batch σ) (index : Nat) : (b.count index).1.id = b.id ∧
    (b.count index).1.limit = b.limit ∧ (b.count index).1.entries = b.entries := by
  unfold count
  dsimp only
  split
  · exact complete_fields _
  · exact ⟨rfl, rfl, rfl⟩

theorem handle_fields (b : Batch σ) (ordinal : Nat) (c : Command σ) :
    (b.handle ordinal c).1 = { b with
      entries := b.entries ++ [.ofCommand c], control := .submitting b.entries.length } := by
  unfold handle
  dsimp only
  split <;> rfl

theorem watch_fields (b : Batch σ) (index : Nat) : (b.watch index).id = b.id ∧
    (b.watch index).limit = b.limit ∧ (b.watch index).entries.length = b.entries.length := by
  unfold watch
  split
  · exact ⟨rfl, rfl, rfl⟩
  · dsimp only
    split <;> exact ⟨rfl, rfl, by simp [setEntry]⟩

/-! ## Exchanging an entry -/

section SetEntry

variable (b : Batch σ) (index : Nat) (e : Entry σ)

@[simp] theorem id_setEntry : (b.setEntry index e).id = b.id := rfl

@[simp] theorem remaining_setEntry : (b.setEntry index e).remaining = b.remaining := rfl

@[simp] theorem interrupted_setEntry : (b.setEntry index e).interrupted = b.interrupted := rfl

@[simp] theorem aggregate_setEntry : (b.setEntry index e).aggregate = b.aggregate := rfl

@[simp] theorem collected_setEntry : (b.setEntry index e).collected = b.collected := rfl

end SetEntry

/-! ## Number, limit and length -/

@[simp] theorem length_setEntry (b : Batch σ) (index : Nat) (e : Entry σ) :
    (b.setEntry index e).entries.length = b.entries.length := by
  simp [setEntry]

/-- What every step leaves, and how many entries it adds. -/
structure Grows (b b' : Batch σ) (n : Nat) : Prop where
  id : b'.id = b.id
  limit : b'.limit = b.limit
  length : b'.entries.length = b.entries.length + n

theorem handles_of_stops {b : Batch σ} {m : Move} (h : b.stops m = true) :
    b.handles m = false := by
  cases m with
  | advance halted ordinal =>
    simp only [stops, Bool.and_eq_true, Bool.or_eq_true, decide_eq_true_eq] at h
    rcases h with ⟨-, rfl | hl⟩
    · simp [handles]
    · have : ¬ b.limit ≤ maxPermits := Nat.not_le.2 hl
      simp [handles, this]
  | _ => rfl

/-- Only to handle a command adds an entry. -/
theorem Step.grows {b : Batch σ} {m : Move} {r : Batch σ × List Notice} (h : Step b m r) :
    b.Grows r.1 (b.handles m).toNat := by
  cases h with
  | stop hc hs =>
    rw [handles_of_stops hs]
    obtain ⟨hi, hl, he⟩ :=
      interrupt_fields { b with control := .ended, permits := b.permits.leave }
    exact ⟨hi, hl, congrArg List.length he⟩
  | @handle ordinal permits c rest hc hl hr ht =>
    have hm : b.handles (.advance false ordinal) = true := by simp [handles, hc, hl, hr, ht]
    rw [hm, handle_fields]
    exact ⟨rfl, rfl, by simp⟩
  | @wait ordinal permits hc hl hr ht =>
    have hm : b.handles (.advance false ordinal) = false := by simp [handles, ht]
    rw [hm]
    exact ⟨rfl, rfl, rfl⟩
  | @finish halted ordinal hc hl hr =>
    have hm : b.handles (.advance halted ordinal) = false := by simp [handles, hr]
    rw [hm]
    exact ⟨rfl, rfl, rfl⟩
  | @watch halted ordinal index hc =>
    have hm : b.handles (.advance halted ordinal) = false := by simp [handles, hc]
    rw [hm]
    exact ⟨(watch_fields b _).1, (watch_fields b _).2.1, (watch_fields b _).2.2⟩
  | @rest halted ordinal hr hs =>
    have hm : b.handles (.advance halted ordinal) = false := by simp [handles, hr]
    rw [hm]
    exact ⟨rfl, rfl, rfl⟩
  | @count index e he hs =>
    obtain ⟨hi, hl, hent⟩ := count_fields (b.setEntry index { e with stage := .counted }) index
    exact ⟨hi, hl, (congrArg List.length hent).trans (by simp [handles])⟩
  | answer he => exact ⟨rfl, rfl, by simp [handles]⟩
  | report he hs => exact ⟨rfl, rfl, by simp [handles]⟩
  | collect he hs => exact ⟨rfl, rfl, by simp [handles]⟩
  | release he hs => exact ⟨rfl, rfl, by simp [handles]⟩
  | unanswered | still | keep | listen => exact ⟨rfl, rfl, rfl⟩

@[simp] theorem id_perform (b : Batch σ) (m : Move) : (b.perform m).1.id = b.id :=
  (step_perform b m).grows.id

@[simp] theorem limit_perform (b : Batch σ) (m : Move) : (b.perform m).1.limit = b.limit :=
  (step_perform b m).grows.limit

/-- A step that handles a command is that of dispatching. -/
theorem Step.eq_of_handles {b : Batch σ} {m : Move} {r : Batch σ × List Notice} (h : Step b m r)
    (hm : b.handles m = true) : ∃ ordinal permits c rest, m = .advance false ordinal ∧
      b.rest = c :: rest ∧ r = { b with permits := permits, rest := rest }.handle ordinal c := by
  cases h with
  | stop hc hs => simp [handles_of_stops hs] at hm
  | handle hc hl hr ht => exact ⟨_, _, _, _, rfl, hr, rfl⟩
  | finish hc hl hr => simp [handles, hr] at hm
  | wait hc hl hr ht => simp [handles, ht] at hm
  | watch hc => simp [handles, hc] at hm
  | rest hr hs => simp [handles, hr] at hm
  | _ => simp [handles] at hm

theorem isSubmitted_ofCommand (c : Command σ) :
    (Entry.ofCommand c).isSubmitted = c.operation.isOk := by
  unfold Entry.isSubmitted Entry.ofCommand
  dsimp only
  cases c.operation <;> rfl

/-- The entry that a step adds is submitted if the command makes an operation. -/
theorem Step.isSubmitted_added {b : Batch σ} {m : Move} {r : Batch σ × List Notice}
    (h : Step b m r) : r.1.entries[b.entries.length]?.any (·.isSubmitted) =
      (b.handles m && b.nextIsOk) := by
  cases hm : b.handles m with
  | false =>
    have hlen := h.grows.length
    rw [hm] at hlen
    have hnone : r.1.entries[b.entries.length]? = none := by simp [hlen]
    rw [hnone]
    rfl
  | true =>
    obtain ⟨ordinal, permits, c, rest, -, hr, rfl⟩ := h.eq_of_handles hm
    rw [handle_fields]
    simp [nextIsOk, hr, isSubmitted_ofCommand]

/-- An entry that was not there before is that of the next command. -/
theorem Step.entry_added {b : Batch σ} {m : Move} {r : Batch σ × List Notice} (h : Step b m r)
    {k : Nat} {e : Entry σ} (hk : b.entries[k]? = none) (he : r.1.entries[k]? = some e) :
    ∃ ordinal c, m = .advance false ordinal ∧ k = b.entries.length ∧ b.rest.head? = some c ∧
      e = .ofCommand c := by
  have hlt := (List.getElem?_eq_some_iff.1 he).1
  have hge := List.getElem?_eq_none_iff.1 hk
  have hm : b.handles m = true := by
    have hlen := h.grows.length
    cases hm : b.handles m with
    | true => rfl
    | false =>
      rw [hm, Bool.toNat_false] at hlen
      omega
  obtain ⟨ordinal, permits, c, rest, rfl, hr, rfl⟩ := h.eq_of_handles hm
  rw [handle_fields] at he hlt
  simp only [List.length_append, List.length_singleton] at hlt
  obtain rfl : k = b.entries.length := by omega
  rw [List.getElem?_concat_length] at he
  exact ⟨ordinal, c, rfl, rfl, by rw [hr]; rfl, (Option.some.inj he).symm⟩

theorem length_perform (b : Batch σ) (m : Move) :
    (b.perform m).1.entries.length = b.entries.length + (b.handles m).toNat :=
  (step_perform b m).grows.length

/-! ## The outcome -/

theorem outcome_complete_of_some {b : Batch σ} {x : Outcome (List (Item σ))}
    (h : b.aggregate.outcome = some x) : b.complete.1.aggregate.outcome = some x := by
  unfold complete
  dsimp only
  split
  · next heq => simp [(Handle.outcome_of_complete? heq).1] at h
  · exact h

theorem outcome_interrupt_of_some {b : Batch σ} {x : Outcome (List (Item σ))}
    (h : b.aggregate.outcome = some x) : b.interrupt.1.aggregate.outcome = some x := by
  unfold interrupt
  dsimp only
  split
  · next heq => simp [(Handle.outcome_of_complete? heq).1] at h
  · exact h

/-- An outcome stays, whatever happens after it. -/
theorem Step.outcome_of_some {b : Batch σ} {m : Move} {r : Batch σ × List Notice} (hs : Step b m r)
    {x : Outcome (List (Item σ))} (h : b.aggregate.outcome = some x) :
    r.1.aggregate.outcome = some x := by
  cases hs with
  | stop hc hs => exact outcome_interrupt_of_some h
  | handle hc hl hr ht =>
    rw [handle_fields]
    exact h
  | watch hc =>
    unfold Batch.watch
    split
    · exact h
    · dsimp only
      split <;> exact h
  | count he hs =>
    unfold Batch.count
    dsimp only
    split
    · exact outcome_complete_of_some h
    · exact h
  | listen =>
    rw [← h]
    exact Handle.outcome_listen _ _
  | _ => exact h

theorem outcome_run_of_some {b : Batch σ} {x : Outcome (List (Item σ))}
    (h : b.aggregate.outcome = some x) (ms : List Move) :
    (b.run ms).1.aggregate.outcome = some x := by
  induction ms generalizing b with
  | nil => exact h
  | cons m ms ih => exact ih ((step_perform b m).outcome_of_some h)

end StoreClient.Batch
