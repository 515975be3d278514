import StoreClient.Proofs.Operation.Lifecycle
import StoreClient.Proofs.Stream.Calls

/-!
# The way of an operation to its end

On its way to the end, the operation of a stream passes three milestones: its outcome is decided,
its handle is completed, and its queue is closed. Whatever the moves are, and in whatever order they
come, it passes each of them once at most, in this order, with one and the same outcome
(`trail_prefix`). Once the outcome is decided, the two steps that the deciding call has still to
make bring it to the end (`trail_finished`).

A step that comes too late leaves its call nothing to do (`late_step`), and the operation keeps what
was decided (`keeps_run`): a failure that comes first wins over the reply that is being processed.
-/

namespace StoreClient.Stream

variable {σ : Signature} {ι : Type} {s s' : Stream σ ι} {es fs : List (Event σ ι)}

/-! ## Milestones -/

/-- What an operation passes on its way to the end. -/
inductive Milestone (α : Type) where
  /-- It became done. -/
  | decided (o : Outcome α)
  /-- Its handle was completed. -/
  | completed (o : Outcome α)
  /-- The queue was closed. -/
  | closed

/-- The milestones between the first stream and the second. -/
def passes (s s' : Stream σ ι) : List (Milestone σ.Output) :=
  (if s.decided?.isSome then [] else s'.decided?.toList.map .decided) ++
    (if s.operation.handle.isDone then []
      else s'.operation.handle.outcome.toList.map .completed) ++
    if s.closed then [] else if s'.closed then [.closed] else []

/-- The milestones that moves pass, in their order. -/
def trail (s : Stream σ ι) : List Move → List (Milestone σ.Output)
  | [] => []
  | m :: ms => s.passes (s.perform m).1 ++ (s.perform m).1.trail ms

/-- The milestones that a stream has behind it. -/
def passed (s : Stream σ ι) : List (Milestone σ.Output) :=
  s.decided?.toList.map .decided ++ s.operation.handle.outcome.toList.map .completed ++
    if s.closed then [.closed] else []

/-- All milestones of a stream that ends with the outcome. -/
def milestones {α : Type} (o : Outcome α) : List (Milestone α) :=
  [.decided o, .completed o, .closed]

/-- The outcome of the handle stays. -/
theorem Produces.outcome_of_some (hs : Produces s (s', fs)) {o : Outcome σ.Output}
    (ho : s.operation.handle.outcome = some o) : s'.operation.handle.outcome = some o := by
  cases hs with
  | still hs => exact hs.outcome.trans ho
  | publish hc hop => exact hop ▸ Operation.outcome_publish_of_some ho _
  | _ => exact ho

theorem outcome_run_of_some {o : Outcome σ.Output} (ho : s.operation.handle.outcome = some o)
    (ms : List Move) : (s.run ms).1.operation.handle.outcome = some o :=
  run_keeps (P := fun t => t.operation.handle.outcome = some o)
    (fun t m h => (produces_perform t m).outcome_of_some h) ho ms

/-- A closed queue stays closed. -/
theorem Produces.closed_of_closed (hs : Produces s (s', fs)) (hc : s.closed = true) :
    s'.closed = true := by
  cases hs with
  | still hs => exact hs.closed.trans hc
  | close => rfl
  | _ => exact hc

theorem closed_run (hcl : s.closed = true) (ms : List Move) : (s.run ms).1.closed = true :=
  run_keeps (P := fun t => t.closed = true)
    (fun t m h => (produces_perform t m).closed_of_closed h) hcl ms

/-- The milestones that a move passes are added to those behind. -/
theorem passed_step (h : s.Orderly) (hs : Produces s (s', fs)) :
    s'.passed = s.passed ++ s.passes s' := by
  have hdecided {o : Outcome σ.Output} := h.decided?_step hs (o := o)
  have houtcome {o : Outcome σ.Output} := hs.outcome_of_some (o := o)
  unfold passed passes
  cases h.standing with
  | going hc hp ho hcl =>
    have hd : s.decided? = none := by simp [decided?, hc, ho]
    simp [hd, ho, hcl, Handle.isDone]
  | @publishing o hc hp ho hcl =>
    have hd : s.decided? = some o := by simp [decided?, hc]
    simp [hd, hdecided hd, ho, hcl, Handle.isDone]
  | @closing o hc hp ho hcl =>
    have hd : s.decided? = some o := by simp [decided?, hc, ho]
    simp [hd, hdecided hd, ho, houtcome ho, hcl, Handle.isDone]
  | @closed o hc hp ho hcl =>
    have hd : s.decided? = some o := by simp [decided?, hc, ho]
    simp [hd, hdecided hd, ho, houtcome ho, hcl, hs.closed_of_closed hcl, Handle.isDone]

theorem Orderly.perform (h : s.Orderly) (m : Move) : (s.perform m).1.Orderly :=
  h.step (produces_perform s m)

theorem Orderly.run (h : s.Orderly) (ms : List Move) : (s.run ms).1.Orderly :=
  run_keeps (fun _ m h => h.perform m) h ms

/-- So are those that moves pass. -/
theorem passed_run (h : s.Orderly) (ms : List Move) :
    (s.run ms).1.passed = s.passed ++ s.trail ms := by
  induction ms generalizing s with
  | nil => exact (List.append_nil _).symm
  | cons m ms ih =>
    have hstep : (s.perform m).1.passed = s.passed ++ s.passes (s.perform m).1 :=
      passed_step h (produces_perform s m)
    calc ((s.perform m).1.run ms).1.passed
        = (s.perform m).1.passed ++ (s.perform m).1.trail ms := ih (h.perform m)
      _ = s.passed ++ (s.passes (s.perform m).1 ++ (s.perform m).1.trail ms) := by
        rw [hstep, List.append_assoc]

/-- A new stream has nothing behind it. -/
theorem trail_ofKind (k : StreamKind σ ι) (config : StreamConfig) (ms : List Move) :
    (ofKind k config).trail ms = ((ofKind k config).run ms).1.passed :=
  (passed_run (orderly_ofKind k config) ms).symm

/-- The milestones behind are the first of all. -/
theorem passed_prefix (h : s.Standing) : ∃ o, s.passed <+: milestones o := by
  unfold passed
  cases h with
  | going hc hp ho hcl =>
    refine ⟨.error (.transport ""), ?_⟩
    simp [decided?, hc, ho, hcl]
  | @publishing o hc hp ho hcl =>
    refine ⟨o, [.completed o, .closed], ?_⟩
    simp [decided?, hc, ho, hcl, milestones]
  | @closing o hc hp ho hcl =>
    refine ⟨o, [.closed], ?_⟩
    simp [decided?, hc, ho, hcl, milestones]
  | @closed o hc hp ho hcl =>
    refine ⟨o, [], ?_⟩
    simp [decided?, hc, ho, hcl, milestones]

/-- An operation passes its milestones in their order, and none of them twice. -/
theorem trail_prefix (k : StreamKind σ ι) (config : StreamConfig) (ms : List Move) :
    ∃ o, (ofKind k config).trail ms <+: milestones o := by
  rw [trail_ofKind]
  exact passed_prefix ((orderly_ofKind k config).run ms).standing

/-! ## The end -/

/-- The two steps that the deciding call has still to make bring the stream to its end. -/
theorem passed_finished (h : s.Standing) {o : Outcome σ.Output} (hd : s.decided? = some o) :
    (s.run [.publish, .close]).1.passed = milestones o := by
  cases h with
  | going hc hp ho =>
    simp [decided?, hc, ho] at hd
  | @publishing x hc hp ho hcl =>
    obtain rfl : x = o := by simpa [decided?, hc] using hd
    simp [run, perform, publish, close, hc, passed, decided?, Operation.publish_of_pending ho,
      milestones]
  | @closing x hc hp ho hcl =>
    obtain rfl : x = o := by simpa [decided?, hc, ho] using hd
    simp [run, perform, publish, close, hc, passed, decided?, ho, milestones]
  | @closed x hc hp ho hcl =>
    obtain rfl : x = o := by simpa [decided?, hc, ho] using hd
    simp [run, perform, publish, close, hc, passed, decided?, ho, hcl, milestones]

/-- Once its outcome is decided, an operation is two steps from its end at most. -/
theorem trail_finished (k : StreamKind σ ι) (config : StreamConfig) {ms : List Move}
    {o : Outcome σ.Output} (hd : ((ofKind k config).run ms).1.decided? = some o) :
    (ofKind k config).trail (ms ++ [.publish, .close]) = milestones o := by
  rw [trail_ofKind, run_append]
  exact passed_finished ((orderly_ofKind k config).run ms).standing hd

/-! ## What comes too late -/

/-- A done operation ignores a reply. -/
theorem settle_of_done (hp : s.operation.isDone = true) {code : UInt8} {step : Outcome σ.Reply}
    (hd : s.delivery = some (.settling code step)) :
    s.settle = ({ s with delivery := none },
      [.noticed (.logged (.overtaken code)), .accepted .ignored]) := by
  simp [settle, hd, Operation.judge, hp]

/-- A done operation fails no more. -/
theorem fail_of_done (hp : s.operation.isDone = true) (hl : s.dropped = false) (c : Cause) :
    s.fail c = (s, [.noticed (.logged (.lateFailure c))]) := by
  unfold fail
  rw [if_neg (by simp [hl]), Operation.condemn, if_pos hp]
  rfl

/-- A step that comes too late leaves its call nothing to do. -/
theorem late_step (hp : s.operation.isDone = true) {m : Move}
    (hm : m = .settle ∨ ∃ c, m = .fail c) :
    (s.perform m).1.operation = s.operation ∧ (s.perform m).1.completion = s.completion ∧
      (s.perform m).1.closed = s.closed := by
  rcases hm with rfl | ⟨c, rfl⟩
  · by_cases hd : ∃ code step, s.delivery = some (.settling code step)
    · obtain ⟨code, step, hd⟩ := hd
      rw [perform, settle_of_done hp hd]
      exact ⟨rfl, rfl, rfl⟩
    · have hstill : s.settle = (s, []) := by
        unfold settle
        split
        · next code step hd' => exact absurd ⟨code, step, hd'⟩ hd
        · rfl
      rw [perform, hstill]
      exact ⟨rfl, rfl, rfl⟩
  · cases hl : s.dropped with
    | false =>
      rw [perform, fail_of_done hp hl c]
      exact ⟨rfl, rfl, rfl⟩
    | true =>
      rw [perform, fail, if_pos hl]
      exact ⟨rfl, rfl, rfl⟩

/-- Only `submit`, `settle` and `fail` touch the phase and the replies. -/
theorem keeps_perform {m : Move} (hsubmit : m ≠ .submit) (hsettle : m ≠ .settle)
    (hfail : ∀ c, m ≠ .fail c) :
    (s.perform m).1.operation.phase = s.operation.phase ∧
      (s.perform m).1.operation.replies = s.operation.replies := by
  by_cases hm : m.isConsuming = true
  · rw [(sameCalls_perform hm).1.operation]
    exact ⟨rfl, rfl⟩
  cases m with
  | submit => exact absurd rfl hsubmit
  | settle => exact absurd rfl hsettle
  | fail c => exact absurd rfl (hfail c)
  | publish =>
    simp only [perform, publish]
    split
    · exact ⟨Operation.phase_publish _ _, Operation.replies_publish _ _⟩
    · exact ⟨rfl, rfl⟩
  | listen l => exact ⟨rfl, rfl⟩
  | take | examine | share | push | discard | stall | close | drop =>
    simp only [perform, take, examine, share, push, discard, stall, close, drop]
    repeat' split
    all_goals exact ⟨rfl, rfl⟩
  | _ => exact absurd rfl hm

/-- Only a reply that is settled and a failure that is reported make an operation done. -/
theorem isDone_perform {m : Move} (hsettle : m ≠ .settle) (hfail : ∀ c, m ≠ .fail c) :
    (s.perform m).1.operation.isDone = s.operation.isDone := by
  by_cases hsubmit : m = .submit
  · subst hsubmit
    simp only [perform, submit, Operation.submit]
    split
    · rfl
    · split
      · next hphase => simp [Operation.isDone, hphase, Phase.isDone]
      · rfl
  · rw [Operation.isDone, (keeps_perform hsubmit hsettle hfail).1, Operation.isDone]

/-- A done operation keeps its phase and its replies. -/
theorem keeps_of_done (hp : s.operation.isDone = true) (m : Move) :
    (s.perform m).1.operation.phase = s.operation.phase ∧
      (s.perform m).1.operation.replies = s.operation.replies := by
  cases m with
  | submit =>
    simp only [perform, submit, Operation.submit]
    split
    · exact ⟨rfl, rfl⟩
    · split
      · next hphase => simp [Operation.isDone, hphase, Phase.isDone] at hp
      · exact ⟨rfl, rfl⟩
  | settle =>
    rw [(late_step hp (.inl rfl)).1]
    exact ⟨rfl, rfl⟩
  | fail c =>
    rw [(late_step hp (.inr ⟨c, rfl⟩)).1]
    exact ⟨rfl, rfl⟩
  | _ => exact keeps_perform (by simp) (by simp) (by simp)

/-- The phase tells which outcome was decided. -/
def Signals (s : Stream σ ι) : Prop :=
  ∀ o, s.decided? = some o → s.operation.phase = .done o.isOk

/-- To make an operation done is to decide its outcome. -/
theorem Produces.signals (h : s.Orderly) (hs : s.operation.isDone = false)
    (hp : Produces s (s', fs)) : s'.Signals := by
  obtain ⟨hc, hout, -⟩ := h.standing.of_pending hs
  have hnone : s.decided? = none := by simp [decided?, hc, hout]
  have hsame (hd : s'.decided? = s.decided?) : s'.Signals := by
    intro o ho
    rw [hd, hnone] at ho
    cases ho
  cases hp with
  | still hsp => exact hsame (by simp only [decided?, hsp.completion, hsp.outcome])
  | reject =>
    rintro o ⟨⟩
    rfl
  | finish =>
    rintro o ⟨⟩
    rfl
  | fail =>
    rintro o ⟨⟩
    rfl
  | publish hc' =>
    rw [hc] at hc'
    cases hc'
  | close hc' =>
    rw [hc] at hc'
    cases hc'
  | _ => exact hsame rfl

theorem Signals.perform (h : s.Orderly) (hs : s.Signals) (m : Move) :
    (s.perform m).1.Signals := by
  by_cases hp : s.operation.isDone = true
  · intro o ho
    rw [(keeps_of_done hp m).1]
    rw [← h.standing.decided?_isSome, Option.isSome_iff_exists] at hp
    obtain ⟨o', ho'⟩ := hp
    have hstays : (s.perform m).1.decided? = some o' := h.decided?_step (produces_perform s m) ho'
    obtain rfl := Option.some.inj (hstays.symm.trans ho)
    exact hs _ ho'
  · exact Produces.signals h (Bool.eq_false_iff.2 hp) (produces_perform s m)

theorem Signals.run (h : s.Orderly) (hs : s.Signals) (ms : List Move) : (s.run ms).1.Signals :=
  (run_keeps (P := fun s => s.Orderly ∧ s.Signals)
    (fun _ m ⟨h, hs⟩ => ⟨h.perform m, hs.perform h m⟩) ⟨h, hs⟩ ms).2

/-- A decided outcome stays, with the phase and the replies. -/
theorem keeps_run (h : s.Orderly) {o : Outcome σ.Output} (ho : s.decided? = some o)
    (ms : List Move) : (s.run ms).1.decided? = some o ∧
      (s.run ms).1.operation.phase = s.operation.phase ∧
      (s.run ms).1.operation.replies = s.operation.replies := by
  induction ms generalizing s with
  | nil => exact ⟨ho, rfl, rfl⟩
  | cons m ms ih =>
    have hp : s.operation.isDone = true := by
      rw [← h.standing.decided?_isSome, ho]
      rfl
    obtain ⟨hphase, hreplies⟩ := keeps_of_done hp m
    obtain ⟨hd, hphases, hall⟩ := ih (h.perform m) (h.decided?_step (produces_perform s m) ho)
    exact ⟨hd, hphases.trans hphase, hall.trans hreplies⟩

/-! ## Answers -/

/-- A reply is answered with whether the operation is done. -/
theorem answers_perform (s : Stream σ ι) (m : Move) :
    ∀ a ∈ Event.answers (s.perform m).2, a = (s.perform m).1.operation.isDone := by
  by_cases hm : m.isConsuming = true
  · rw [(sameCalls_perform hm).2]
    exact List.forall_mem_nil _
  cases m with
  | take m =>
    simp only [perform, take]
    split
    · exact List.forall_mem_nil _
    · split
      · next hp => simpa [Event.answers, Accepted.isFinished] using hp
      · exact List.forall_mem_nil _
  | settle =>
    simp only [perform, settle]
    split
    · next code step hd =>
      rcases s.operation.judge_cases code step with ⟨hp, ns, hj⟩ | ⟨hp, c, ns, rfl, hj⟩ |
        ⟨hp, reply, rfl, hj⟩ | ⟨hp, reply, o, ns, rfl, ho, hj⟩ <;> rw [hj]
      · simpa [Accepted.isFinished] using hp
      · simp [Accepted.isFinished, Operation.isDone, Phase.isDone]
      · simp [Accepted.isFinished, Operation.isDone, Phase.isDone]
      · simp [Accepted.isFinished, Operation.isDone, Phase.isDone]
    · exact List.forall_mem_nil _
  | fail c =>
    simp only [perform, fail]
    repeat' split
    all_goals simp
  | publish =>
    simp only [perform, publish]
    split <;> simp
  | listen l => simp [perform, listen]
  | submit | examine | share | push | discard | stall | close | drop =>
    simp only [perform, submit, examine, share, push, discard, stall, close, drop]
    repeat' split
    all_goals exact List.forall_mem_nil _
  | _ => exact absurd rfl hm

/-- Once an operation is done, every reply is answered with that. -/
theorem answers_run (h : s.Orderly) (hp : s.operation.isDone = true) (ms : List Move) :
    ∀ a ∈ Event.answers (s.run ms).2, a = true := by
  induction ms generalizing s with
  | nil => exact List.forall_mem_nil _
  | cons m ms ih =>
    intro a ha
    have hdone : (s.perform m).1.operation.isDone = true := h.isDone_step hp (produces_perform s m)
    rw [show (s.run (m :: ms)).2 = (s.perform m).2 ++ ((s.perform m).1.run ms).2 from rfl,
      Event.answers_append, List.mem_append] at ha
    rcases ha with ha | ha
    · exact (answers_perform s m a ha).trans hdone
    · exact ih (h.perform m) hdone a ha

end StoreClient.Stream
