import StoreClient.Proofs.Stream.Closing

/-!
# What listeners find in the queue

The call that makes an operation done completes its handle first, and closes the queue when the
listeners of the handle have run. So the end of a stream is not told before its outcome is there, but
the listeners find the queue still open (`answer_while_closing`): a reader that took all items is
told there to wait, whichever call made the operation done. It is told how the stream ended as soon
as that call closes the queue (`answer_when_closed`). So it is at every moment between the two,
whatever else happens in the meantime (`OpenToListeners`).
-/

namespace StoreClient.Stream

variable {σ : Signature} {ι : Type} {s s' : Stream σ ι} {es fs : List (Event σ ι)} {r : Reader ι}
  {o : Outcome σ.Output}

/-! ## The call that makes an operation done -/

/-- Whichever move makes an operation done leaves its handle to be completed. -/
theorem Produces.publishing (h : s.Orderly) (hp : s.operation.isDone = false)
    (hs : Produces s (s', fs)) (hdone : s'.operation.isDone = true) :
    ∃ o, s'.completion = some (.publishing o) := by
  obtain ⟨hc, -, -⟩ := h.standing.of_pending hp
  have hnot (hsame : s'.operation.isDone = s.operation.isDone) :
      ∃ o, s'.completion = some (.publishing o) := by
    rw [hsame, hp] at hdone
    cases hdone
  cases hs with
  | still hs => exact hnot hs.isDone
  | reject | finish | fail => exact ⟨_, rfl⟩
  | accept => cases hdone
  | publish hc' | close hc' =>
    rw [hc] at hc'
    cases hc'
  | take | decode | refuse | share | push | discard | stall | ignore | drop => exact hnot rfl

/-- While the queue has a producing end, no failure was told. -/
theorem Tells.failures_eq_zero (h : s.Tells es) (hs : s.hasProducer = true) :
    Event.failures es = 0 := by
  unfold Event.failures
  cases h with
  | items hr => rw [hr, countP_isFailure_items]
  | ending n ho =>
    rw [ho.noProducer] at hs
    cases hs

theorem Event.failures_append (es fs : List (Event σ ι)) :
    Event.failures (es ++ fs) = Event.failures es + Event.failures fs := by
  rw [Event.failures, Event.reports_append, List.countP_append]
  rfl

/-! ## What a reader is told -/

/-- While the listeners run, the queue has its producing end. -/
theorem Orderly.hasProducer_of_closing (h : s.Orderly) (hc : s.completion = some .closing) :
    s.hasProducer = true := by
  obtain ⟨-, -, hopen⟩ := h.standing.of_closing hc
  simp [hasProducer, hopen, h.dropped_of_completion hc]

/-- While the listeners run, a reader gets the items that are left, and has to wait for more. -/
theorem answer_while_closing (h : s.Orderly) (hc : s.completion = some .closing)
    (hr : s.claim = .reading r) : (s.perform (.read .hasNext)).2 =
      [.ready (if s.peeked ++ s.queue ≠ [] then .ok true
        else .error (.pollTimeout r.timeout.milliseconds))] := by
  have hproducer : s.hasProducer = true := h.hasProducer_of_closing hc
  simp only [perform, read, hr, ask, Conveys.peeked_reading hr]
  cases hp : r.peeked with
  | some i => simp [hasNext, hp]
  | none => cases hq : s.queue <;> simp [hasNext, hp, hq, hproducer]

/-- How a reader is told that a stream ended with the outcome. -/
def endAnswer {α : Type} : Outcome α → Except StreamError Bool
  | .ok _ => .ok false
  | .error c => .error (.failed c)

/-- When the queue is closed, a reader gets the items that are left, and then is told how the stream
ended, a failure once. -/
theorem answer_when_closed (h : s.Sound es) (hrest : s.AtRest) (hr : s.claim = .reading r)
    (ho : s.operation.handle.outcome = some o) (hcl : s.closed = true) :
    (s.perform (.read .hasNext)).2 = [.ready (if s.peeked ++ s.queue ≠ [] then .ok true
      else if 0 < Event.failures es then .ok false else endAnswer o)] := by
  have hdone : ¬ (s.operation.isDone = false ∧ s.dropped = false) := by
    rw [← h.orderly.closed_eq_isDone hrest.completion, hcl]
    simp
  rw [answer_hasNext h hrest hr, dueAnswer, if_neg hdone, ho]
  cases o <;> rfl

/-- After it was told the end once, it is told that there are no more items. -/
theorem answer_again (h : s.Sound es) (hrest : s.AtRest) (hr : s.claim = .reading r)
    (ho : s.operation.handle.outcome = some o) (hcl : s.closed = true)
    (hitems : s.peeked ++ s.queue = []) :
    ((s.perform (.read .hasNext)).1.perform (.read .hasNext)).2 = [.ready (.ok false)] := by
  have hfirst := answer_when_closed h hrest hr ho hcl
  have hsame := (sameCalls_perform (s := s) (m := .read .hasNext) rfl).1
  obtain ⟨hkept, ⟨r', hr'⟩, -⟩ := perform_hasNext hr
  have hagain := answer_when_closed (h.perform (.read .hasNext)) (hrest.perform rfl) hr'
    (hsame.operation ▸ ho) (hsame.closed.trans hcl)
  rw [if_neg (not_not.2 hitems)] at hfirst
  rw [hagain, hkept, if_neg (not_not.2 hitems), hfirst]
  cases o with
  | ok v => simp only [endAnswer, ite_self]
  | error c =>
    have htold : 0 < Event.failures (es ++ [.ready (if 0 < Event.failures es then .ok false
        else endAnswer (.error c : Outcome σ.Output))]) := by
      rw [Event.failures_append]
      by_cases hf : 0 < Event.failures es
      · exact Nat.add_pos_left hf _
      · rw [if_neg hf]
        exact Nat.succ_pos _
    rw [if_pos htold]

/-! ## Listeners -/

/-- What is so while the listeners run of a handle that is complete with the outcome. -/
structure OpenToListeners (s : Stream σ ι) (o : Outcome σ.Output) : Prop where
  done : s.operation.isDone = true
  outcome : s.operation.handle.outcome = some o
  opened : s.closed = false
  /-- A reader gets the items that are left, and has to wait for more. -/
  meanwhile : ∀ r, s.claim = .reading r → (s.perform (.read .hasNext)).2 =
    [.ready (if s.peeked ++ s.queue ≠ [] then .ok true
      else .error (.pollTimeout r.timeout.milliseconds))]
  /-- From when the queue is closed, it is told how the stream ended, and a failure once. -/
  afterwards : ∀ moves r,
    let x := s.run (.close :: moves)
    x.1.delivery = none → x.1.claim = .reading r → (x.1.perform (.read .hasNext)).2 =
      [.ready (if x.1.peeked ++ x.1.queue ≠ [] then .ok true
        else if 0 < Event.failures x.2 then .ok false else endAnswer o)]
  /-- Then it is told that there is no more. -/
  again : ∀ moves r,
    let x := s.run (.close :: moves)
    x.1.delivery = none → x.1.claim = .reading r → x.1.peeked ++ x.1.queue = [] →
      ((x.1.perform (.read .hasNext)).1.perform (.read .hasNext)).2 = [.ready (.ok false)]

/-- No failure was told before the queue is closed, and the outcome stays from then on, so whoever
asks is told the same end. -/
theorem openToListeners (h : s.Sound es) (hc : s.completion = some .closing)
    (ho : s.operation.handle.outcome = some o) : s.OpenToListeners o := by
  obtain ⟨hdone, -, hopen⟩ := h.orderly.standing.of_closing hc
  have hfailures : Event.failures es = 0 :=
    h.tells.failures_eq_zero (h.orderly.hasProducer_of_closing hc)
  have hclosed : (s.perform .close).1.closed = true ∧
      (s.perform .close).1.operation.handle.outcome = some o := by
    simp [perform, close, hc, ho]
  have hlater (moves : List Move) : (s.run (.close :: moves)).1.closed = true ∧
      (s.run (.close :: moves)).1.operation.handle.outcome = some o :=
    ⟨closed_run hclosed.1 moves, outcome_run_of_some hclosed.2 moves⟩
  have hrest (moves : List Move) (hd : (s.run (.close :: moves)).1.delivery = none) :
      (s.run (.close :: moves)).1.AtRest :=
    ⟨hd, ((h.run (.close :: moves)).orderly.standing.of_closed (hlater moves).1).1⟩
  refine ⟨hdone, ho, hopen, fun r hr => answer_while_closing h.orderly hc hr, ?_, ?_⟩
  · intro moves r x hd hr
    have hanswer := answer_when_closed (h.run (.close :: moves)) (hrest moves hd) hr
      (hlater moves).2 (hlater moves).1
    rwa [Event.failures_append, hfailures, Nat.zero_add] at hanswer
  · intro moves r x hd hr hitems
    exact answer_again (h.run (.close :: moves)) (hrest moves hd) hr (hlater moves).2
      (hlater moves).1 hitems

/-- A call that is about to complete the handle with the outcome runs the listeners, and closes the
queue some time after them. -/
structure EndsAfterListeners (s : Stream σ ι) (o : Outcome σ.Output) : Prop where
  /-- The handle is completed, and its listeners run. -/
  listeners :
    (s.perform .publish).1.completion = some .closing ∧
      (s.perform .publish).1.operation.isDone = true ∧
      (s.perform .publish).1.operation.handle.outcome = some o ∧
      (s.perform .publish).2 =
        (Notice.ofListeners s.operation.handle.listeners o.isOk).map .noticed
  /-- Whatever happens until the queue is closed, they find it open. -/
  meanwhile : ∀ moves, (s.run (.publish :: moves)).1.completion = some .closing →
    (s.run (.publish :: moves)).1.OpenToListeners o

theorem endsAfterListeners (h : s.Sound es) (hc : s.completion = some (.publishing o)) :
    s.EndsAfterListeners o := by
  obtain ⟨hdone, hout, -⟩ := h.orderly.standing.of_publishing hc
  have hpublish : s.perform .publish =
      ({ s with
        operation := { s.operation with handle := ⟨some o, []⟩ }
        completion := some .closing },
        (Notice.ofListeners s.operation.handle.listeners o.isOk).map .noticed) := by
    simp only [perform, publish, hc, Operation.publish_of_pending hout]
  have hcomplete : (s.perform .publish).1.operation.handle.outcome = some o := by rw [hpublish]
  refine ⟨?_, fun moves hclosing => ?_⟩
  · rw [hpublish]
    exact ⟨rfl, hdone, rfl, rfl⟩
  · exact openToListeners (h.run (.publish :: moves)) hclosing
      (outcome_run_of_some hcomplete moves)

/-- **Listeners find the queue open**, whichever call made the operation done, and the end of the
stream is told after them. -/
theorem listeners_find_queue_open (k : StreamKind σ ι) (config : StreamConfig)
    (moves : List Move) :
    let s := ((ofKind k config).run moves).1
    (∀ m, s.operation.isDone = false → (s.perform m).1.operation.isDone = true →
      ∃ o, (s.perform m).1.completion = some (.publishing o)) ∧
    (∀ o, s.completion = some (.publishing o) → s.EndsAfterListeners o) ∧
    (s.completion = some .closing → ∃ o, s.OpenToListeners o) := by
  intro s
  have hsound : s.Sound ((ofKind k config).run moves).2 := (sound_ofKind k config).run moves
  refine ⟨fun m hp hdone => ?_, fun o hc => ?_, fun hc => ?_⟩
  · exact Produces.publishing hsound.orderly hp (produces_perform s m) hdone
  · exact endsAfterListeners hsound hc
  · obtain ⟨-, ⟨o, ho⟩, -⟩ := hsound.orderly.standing.of_closing hc
    exact ⟨o, openToListeners hsound hc ho⟩

/-! ## Four ways to end -/

/-- A reader is claimed, and a listener registered. -/
def listening : List Move := [.takeResults, .claim 0, .listen ⟨"done", 0⟩]

/-- A last reply without items, an error response, an item for which no room comes, and a failure that
is reported. The reader takes the item that was queued. -/
def fourEndings : List (List Move) :=
  [[.take ⟨2, [0]⟩, .examine, .share, .settle],
    [.take ⟨0, []⟩, .examine, .settle],
    [.take ⟨2, [7, 8]⟩, .examine, .share, .push, .stall, .settle, .read .next],
    [.fail (.transport "lost")]]

/-- What is so after the operation completed its handle, while the listener runs. -/
structure WaitsWhileHeard (x : Stream σ ι × List (Event σ ι)) : Prop where
  done : x.1.operation.isDone = true
  heard : ∃ report, x.2 = [.noticed (.heard report)]
  drained : x.1.peeked ++ x.1.queue = []
  waits : ∃ ms, (x.1.perform (.read .hasNext)).2 = [.ready (.error (.pollTimeout ms))]

/-- Whichever way the operation ended, its listener finds no item left and no end of the stream. -/
theorem listeners_see_no_end : fourEndings.Forall fun ending =>
    WaitsWhileHeard (((ofKind octets onePlace).run (listening ++ ending)).1.perform .publish) :=
  ⟨⟨rfl, ⟨_, rfl⟩, rfl, _, rfl⟩, ⟨rfl, ⟨_, rfl⟩, rfl, _, rfl⟩, ⟨rfl, ⟨_, rfl⟩, rfl, _, rfl⟩,
    ⟨rfl, ⟨_, rfl⟩, rfl, _, rfl⟩⟩

/-- While the listener runs, the reader is told to wait as often as it asks. After it, the reader is
told that the stream failed, and then that there is no more. -/
theorem listeners_find_queue_open_octets :
    let s := ((ofKind octets onePlace).run (listening ++ [.fail (.transport "lost")])).1
    let t := (s.run [.publish, .read .hasNext]).1
    s.EndsAfterListeners (.error (.transport "lost")) ∧
      t.operation.isDone = true ∧
      (t.perform (.read .hasNext)).2 =
        [.ready (.error (.pollTimeout onePlace.pollTimeout.milliseconds))] ∧
      ((t.run [.close]).1.perform (.read .hasNext)).2 =
        [.ready (.error (.failed (.transport "lost")))] ∧
      (((t.run [.close]).1.perform (.read .hasNext)).1.perform (.read .hasNext)).2 =
        [.ready (.ok false)] := by
  intro s t
  obtain ⟨hdone, -, -⟩ := listeners_find_queue_open octets onePlace listening
  obtain ⟨-, hends, -⟩ :=
    listeners_find_queue_open octets onePlace (listening ++ [.fail (.transport "lost")])
  obtain ⟨o, ho⟩ := hdone (.fail (.transport "lost")) rfl rfl
  obtain rfl : .error (.transport "lost") = o := Completion.publishing.inj (Option.some.inj ho)
  have h : t.OpenToListeners (.error (.transport "lost")) :=
    (hends _ ho).meanwhile [.read .hasNext] rfl
  exact ⟨hends _ ho, h.done, h.meanwhile _ rfl, h.afterwards [] _ rfl rfl, h.again [] _ rfl rfl rfl⟩

end StoreClient.Stream
