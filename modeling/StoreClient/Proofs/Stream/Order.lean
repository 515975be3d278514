import StoreClient.Proofs.Stream.Steps

/-!
# The order of the ends of a stream

An operation is made done before its handle has the outcome, and the handle has the outcome before
the queue is closed (`Standing`). An operation is dropped when none of its calls goes on
(`Orderly`). So once the queue has no producing end, neither the queue nor the outcome changes any
more (`Orderly.stays_over`).
-/

namespace StoreClient.Stream

variable {σ : Signature} {ι : Type} {s : Stream σ ι}

/-- The outcome that was decided for the operation. -/
def decided? (s : Stream σ ι) : Option (Outcome σ.Output) :=
  match s.completion with
  | some (.publishing o) => some o
  | _ => s.operation.handle.outcome

/-- How far the operation has come to its end. -/
inductive Standing (s : Stream σ ι) : Prop where
  | going (hc : s.completion = none) (hp : s.operation.isDone = false)
      (ho : s.operation.handle.outcome = none) (hcl : s.closed = false)
  | publishing {o : Outcome σ.Output} (hc : s.completion = some (.publishing o))
      (hp : s.operation.isDone = true) (ho : s.operation.handle.outcome = none)
      (hcl : s.closed = false)
  | closing {o : Outcome σ.Output} (hc : s.completion = some .closing)
      (hp : s.operation.isDone = true) (ho : s.operation.handle.outcome = some o)
      (hcl : s.closed = false)
  | closed {o : Outcome σ.Output} (hc : s.completion = none) (hp : s.operation.isDone = true)
      (ho : s.operation.handle.outcome = some o) (hcl : s.closed = true)

namespace Standing

theorem of_same {s' : Stream σ ι} (h : s.Standing) (hs : s.SameProducer s') : s'.Standing := by
  cases h with
  | going hc hp ho hcl =>
    exact .going (hs.completion.trans hc) (hs.isDone.trans hp) (hs.outcome.trans ho)
      (hs.closed.trans hcl)
  | publishing hc hp ho hcl =>
    exact .publishing (hs.completion.trans hc) (hs.isDone.trans hp) (hs.outcome.trans ho)
      (hs.closed.trans hcl)
  | closing hc hp ho hcl =>
    exact .closing (hs.completion.trans hc) (hs.isDone.trans hp) (hs.outcome.trans ho)
      (hs.closed.trans hcl)
  | closed hc hp ho hcl =>
    exact .closed (hs.completion.trans hc) (hs.isDone.trans hp) (hs.outcome.trans ho)
      (hs.closed.trans hcl)

/-- Neither the delivery nor the queue matters. -/
theorem of_eq {s' : Stream σ ι} (h : s.Standing) (ho : s'.operation = s.operation)
    (hc : s'.completion = s.completion) (hcl : s'.closed = s.closed) : s'.Standing := by
  cases h with
  | going h₁ h₂ h₃ h₄ => exact .going (hc.trans h₁) (ho ▸ h₂) (ho ▸ h₃) (hcl.trans h₄)
  | publishing h₁ h₂ h₃ h₄ => exact .publishing (hc.trans h₁) (ho ▸ h₂) (ho ▸ h₃) (hcl.trans h₄)
  | closing h₁ h₂ h₃ h₄ => exact .closing (hc.trans h₁) (ho ▸ h₂) (ho ▸ h₃) (hcl.trans h₄)
  | closed h₁ h₂ h₃ h₄ => exact .closed (hc.trans h₁) (ho ▸ h₂) (ho ▸ h₃) (hcl.trans h₄)

/-- Nothing was decided for an operation that is not done. -/
theorem of_pending (h : s.Standing) (hp : s.operation.isDone = false) :
    s.completion = none ∧ s.operation.handle.outcome = none ∧ s.closed = false := by
  cases h with
  | going hc _ ho hcl => exact ⟨hc, ho, hcl⟩
  | publishing _ hd => exact absurd (hp.symm.trans hd) Bool.false_ne_true
  | closing _ hd => exact absurd (hp.symm.trans hd) Bool.false_ne_true
  | closed _ hd => exact absurd (hp.symm.trans hd) Bool.false_ne_true

theorem of_publishing (h : s.Standing) {o : Outcome σ.Output}
    (hc : s.completion = some (.publishing o)) :
    s.operation.isDone = true ∧ s.operation.handle.outcome = none ∧ s.closed = false := by
  cases h with
  | publishing _ hp ho hcl => exact ⟨hp, ho, hcl⟩
  | going hc' => rw [hc'] at hc; cases hc
  | closing hc' => rw [hc'] at hc; cases hc
  | closed hc' => rw [hc'] at hc; cases hc

theorem of_closing (h : s.Standing) (hc : s.completion = some .closing) :
    s.operation.isDone = true ∧ (∃ o, s.operation.handle.outcome = some o) ∧
      s.closed = false := by
  cases h with
  | closing _ hp ho hcl => exact ⟨hp, ⟨_, ho⟩, hcl⟩
  | going hc' => rw [hc'] at hc; cases hc
  | publishing hc' => rw [hc'] at hc; cases hc
  | closed hc' => rw [hc'] at hc; cases hc

theorem of_closed (h : s.Standing) (hcl : s.closed = true) :
    s.completion = none ∧ s.operation.isDone = true ∧ ∃ o, s.operation.handle.outcome = some o := by
  cases h with
  | going _ _ _ hcl' => exact absurd (hcl'.symm.trans hcl) Bool.false_ne_true
  | publishing _ _ _ hcl' => exact absurd (hcl'.symm.trans hcl) Bool.false_ne_true
  | closing _ _ _ hcl' => exact absurd (hcl'.symm.trans hcl) Bool.false_ne_true
  | closed hc hp ho => exact ⟨hc, hp, _, ho⟩

theorem closed_of_no_completion (h : s.Standing) (hp : s.operation.isDone = true)
    (hc : s.completion = none) : s.closed = true := by
  cases h with
  | going _ hp' => exact absurd (hp'.symm.trans hp) Bool.false_ne_true
  | publishing hc' => rw [hc'] at hc; cases hc
  | closing hc' => rw [hc'] at hc; cases hc
  | closed _ _ _ hcl => exact hcl

theorem decided?_isSome (h : s.Standing) : s.decided?.isSome = s.operation.isDone := by
  unfold decided?
  cases h with
  | going hc hp ho => simp [hc, hp, ho]
  | publishing hc hp => simp [hc, hp]
  | closing hc hp ho => simp [hc, hp, ho]
  | closed hc hp ho => simp [hc, hp, ho]

/-- The handle has no outcome but the one that was decided. -/
theorem decided?_of_outcome (h : s.Standing) {o : Outcome σ.Output}
    (ho : s.operation.handle.outcome = some o) : s.decided? = some o := by
  unfold decided?
  cases h with
  | going hc => simpa [hc] using ho
  | publishing _ _ ho' =>
    rw [ho'] at ho
    cases ho
  | closing hc => simpa [hc] using ho
  | closed hc => simpa [hc] using ho

end Standing

/-- The ends of a stream came in order. -/
structure Orderly (s : Stream σ ι) : Prop where
  standing : s.Standing
  dropped : s.dropped = true → s.delivery = none ∧ s.completion = none

theorem orderly_ofKind (k : StreamKind σ ι) (c : StreamConfig) : (ofKind k c).Orderly where
  standing := .going rfl rfl rfl rfl
  dropped h := by cases h

namespace Orderly

theorem dropped_eq_false (h : s.Orderly) {d : Delivery σ ι} (hd : s.delivery = some d) :
    s.dropped = false := by
  refine Bool.eq_false_iff.2 fun hl => ?_
  rw [(h.dropped hl).1] at hd
  cases hd

/-- An operation is there as long as one of its calls has to complete it. -/
theorem dropped_of_completion (h : s.Orderly) {x : Completion σ.Output}
    (hc : s.completion = some x) : s.dropped = false := by
  refine Bool.eq_false_iff.2 fun hl => ?_
  rw [(h.dropped hl).2] at hc
  cases hc

/-- A delivery goes on. -/
theorem deliver (h : s.Orderly) {d : Delivery σ ι} (hd : s.delivery = some d)
    {s' : Stream σ ι} (ho : s'.operation = s.operation) (hc : s'.completion = s.completion)
    (hcl : s'.closed = s.closed) (hl : s'.dropped = s.dropped) : s'.Orderly where
  standing := h.standing.of_eq ho hc hcl
  dropped hl' := by
    rw [hl, h.dropped_eq_false hd] at hl'
    cases hl'

/-- An operation is made done. -/
theorem decide (h : s.Orderly) (hl : s.dropped = false) (hp : s.operation.isDone = false)
    {s' : Stream σ ι} {o : Outcome σ.Output} (hp' : s'.operation.isDone = true)
    (ho : s'.operation.handle = s.operation.handle) (hc : s'.completion = some (.publishing o))
    (hcl : s'.closed = s.closed) (hl' : s'.dropped = s.dropped) : s'.Orderly where
  standing := by
    obtain ⟨-, hout, hclosed⟩ := h.standing.of_pending hp
    exact .publishing hc hp' (ho ▸ hout) (hcl.trans hclosed)
  dropped hd := by
    rw [hl', hl] at hd
    cases hd

theorem step (h : s.Orderly) {s' : Stream σ ι} {es : List (Event σ ι)}
    (hs : Produces s (s', es)) : s'.Orderly := by
  cases hs with
  | still hs =>
    refine ⟨h.standing.of_same hs, fun hl => ?_⟩
    rw [hs.dropped] at hl
    exact ⟨hs.delivery.trans (h.dropped hl).1, hs.completion.trans (h.dropped hl).2⟩
  | take hd hp hl =>
    refine ⟨h.standing.of_eq rfl rfl rfl, fun hl' => ?_⟩
    exact absurd (hl.symm.trans hl') Bool.false_ne_true
  | decode hd => exact h.deliver hd rfl rfl rfl rfl
  | refuse hd => exact h.deliver hd rfl rfl rfl rfl
  | share hd => exact h.deliver hd rfl rfl rfl rfl
  | push hd => exact h.deliver hd rfl rfl rfl rfl
  | discard hd => exact h.deliver hd rfl rfl rfl rfl
  | stall hd => exact h.deliver hd rfl rfl rfl rfl
  | ignore hd => exact h.deliver hd rfl rfl rfl rfl
  | reject hd hp => exact h.decide (h.dropped_eq_false hd) hp rfl rfl rfl rfl rfl
  | accept hd hp =>
    obtain ⟨hc, ho, hcl⟩ := h.standing.of_pending hp
    refine ⟨.going hc rfl ho hcl, fun hl => ?_⟩
    exact absurd ((h.dropped_eq_false hd).symm.trans hl) Bool.false_ne_true
  | finish hd hp => exact h.decide (h.dropped_eq_false hd) hp rfl rfl rfl rfl rfl
  | fail hp hl => exact h.decide hl hp rfl rfl rfl rfl rfl
  | @publish o op _ hc hop =>
    have hl : s.dropped = false := h.dropped_of_completion hc
    obtain ⟨hp, hout, hcl⟩ := h.standing.of_publishing hc
    refine ⟨?_, fun hl' => absurd (hl.symm.trans hl') Bool.false_ne_true⟩
    refine .closing rfl ?_ (hop ▸ Operation.outcome_publish_of_none hout o) hcl
    rw [hop]
    unfold Operation.isDone
    rwa [Operation.phase_publish]
  | close hc =>
    have hl : s.dropped = false := h.dropped_of_completion hc
    obtain ⟨hp, ⟨o, hout⟩, -⟩ := h.standing.of_closing hc
    exact ⟨.closed rfl hp hout rfl, fun hl' => absurd (hl.symm.trans hl') Bool.false_ne_true⟩
  | drop hd hc => exact ⟨h.standing.of_eq rfl rfl rfl, fun _ => ⟨hd, hc⟩⟩

/-- What is decided stays so. -/
theorem decided?_step (h : s.Orderly) {s' : Stream σ ι} {es : List (Event σ ι)}
    (hs : Produces s (s', es)) {o : Outcome σ.Output} (ho : s.decided? = some o) :
    s'.decided? = some o := by
  have hp : s.operation.isDone = true := by
    rw [← h.standing.decided?_isSome, ho]
    rfl
  have hnot : s.operation.isDone ≠ false := by simp [hp]
  cases hs with
  | still hs =>
    rw [← ho]
    unfold decided?
    rw [hs.completion, hs.outcome]
  | take hd hp' => exact absurd hp' hnot
  | reject hd hp' => exact absurd hp' hnot
  | accept hd hp' => exact absurd hp' hnot
  | finish hd hp' => exact absurd hp' hnot
  | fail hp' => exact absurd hp' hnot
  | @publish x op _ hc hop =>
    have hx : x = o := by simpa [decided?, hc] using ho
    have hout := (h.standing.of_publishing hc).2.1
    simp [decided?, hop, Operation.outcome_publish_of_none hout, hx]
  | close hc => simpa [decided?, hc] using ho
  | decode | refuse | share | push | discard | stall | ignore | drop => exact ho

/-- Once the queue has no producing end, it gets none, and what ends the stream is settled. -/
theorem stays_over (h : s.Orderly) (hf : s.hasProducer = false) {s' : Stream σ ι}
    {es : List (Event σ ι)} (hs : Produces s (s', es)) :
    s'.hasProducer = false ∧ s'.endCause? = s.endCause? ∧
      s'.operation.handle.outcome = s.operation.handle.outcome := by
  simp only [hasProducer, Bool.or_eq_false_iff, Bool.and_eq_false_iff, Bool.not_eq_false'] at hf ⊢
  obtain ⟨hend, hq⟩ := hf
  have hgone : s.completion = none ∧ (s.operation.isDone = true ∨ s.dropped = true) := by
    rcases hend with hcl | hl
    · exact ⟨(h.standing.of_closed hcl).1, .inl (h.standing.of_closed hcl).2.1⟩
    · exact ⟨(h.dropped hl).2, .inr hl⟩
  have hlate : s.delivery.isSome = true → s.operation.isDone ≠ false := by
    intro hd hp
    rcases hgone.2 with hp' | hl
    · exact absurd (hp.symm.trans hp') Bool.false_ne_true
    · rw [(h.dropped hl).1] at hd
      cases hd
  cases hs with
  | still hs =>
    simp only [endCause?, Handle.isDone, Handle.cause?, isQueueing, hs.closed, hs.dropped,
      hs.outcome, hs.delivery]
    exact ⟨⟨hend, hq⟩, rfl, trivial⟩
  | take hd => exact ⟨⟨hend, rfl⟩, rfl, rfl⟩
  | decode hd => exact ⟨⟨hend, rfl⟩, rfl, rfl⟩
  | refuse hd => exact ⟨⟨hend, rfl⟩, rfl, rfl⟩
  | share hd hr =>
    have hcl : s.closed = true := by
      rcases hend with hcl | hl
      · exact hcl
      · exact absurd (h.dropped_eq_false hd) (by simp [hl])
    rcases hr with ⟨hcl', -⟩ | ⟨-, rfl⟩
    · exact absurd (hcl'.symm.trans hcl) Bool.false_ne_true
    · exact ⟨⟨hend, rfl⟩, rfl, rfl⟩
  | push hd => simp [isQueueing, hd] at hq
  | discard hd => exact ⟨⟨hend, rfl⟩, rfl, rfl⟩
  | stall hd => exact ⟨⟨hend, rfl⟩, rfl, rfl⟩
  | ignore hd => exact ⟨⟨hend, rfl⟩, rfl, rfl⟩
  | reject hd hp => exact absurd hp (hlate (by simp [hd]))
  | accept hd hp => exact absurd hp (hlate (by simp [hd]))
  | finish hd hp => exact absurd hp (hlate (by simp [hd]))
  | fail hp hl =>
    rcases hgone.2 with hp' | hl'
    · exact absurd (hp.symm.trans hp') Bool.false_ne_true
    · exact absurd (hl.symm.trans hl') Bool.false_ne_true
  | publish hc =>
    rw [hgone.1] at hc
    cases hc
  | close hc =>
    rw [hgone.1] at hc
    cases hc
  | drop hd => exact ⟨⟨.inr rfl, by simp [isQueueing, hd]⟩, rfl, rfl⟩

end Orderly

end StoreClient.Stream
