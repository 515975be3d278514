import StoreClient.Proofs.Stream.Milestones
import StoreClient.Proofs.Stream.Sessions

/-!
# Failures that overtake a reply

A failure may be reported while a reply is processed, even from inside, while its items are made.
It comes before the reply is settled, so it decides the outcome: the operation fails with the first
cause, its queue is closed, and the reply is given up as one that comes too late
(`receive_of_interrupted`). The reader gets the items of the replies before, and then the failure
(`EndedWith`).
-/

namespace StoreClient.Stream

variable {σ : Signature} {ι : Type} {s s' : Stream σ ι} {es fs : List (Event σ ι)}

/-! ## Failures -/

/-- The stream after it failed. -/
def failed (s : Stream σ ι) (c : Cause) : Stream σ ι := { s with
  operation := { s.operation with phase := .done false, handle := ⟨some (.error c), []⟩ }
  closed := true }

/-- Nothing is left to do for any call but the delivery of a reply, and the operation is there. -/
structure IsQuiet (s : Stream σ ι) : Prop where
  completion : s.completion = none
  dropped : s.dropped = false

/-- A failure decides the outcome of an operation that goes on. -/
theorem fail_of_pending (hl : s.dropped = false) (hp : s.operation.isDone = false) (c : Cause) :
    s.fail c = ({ s with
      operation := { s.operation with phase := .done false }
      completion := some (.publishing (.error c)) }, []) := by
  unfold fail
  rw [if_neg (by simp [hl]), Operation.condemn, if_neg (by simp [hp])]
  rfl

/-- A failure ends an operation that goes on. -/
theorem run_failing_of_pending (hq : s.IsQuiet) (hp : s.operation.isDone = false)
    (ho : s.operation.handle.outcome = none) (c : Cause) :
    s.run (failing c) =
      (s.failed c, (Notice.ofListeners s.operation.handle.listeners false).map .noticed) := by
  let condemned := { s.operation with phase := .done false }
  have hpublish : condemned.publish (.error c) =
      ({ condemned with handle := ⟨some (.error c), []⟩ },
        Notice.ofListeners s.operation.handle.listeners false) := by
    have hpending : condemned.handle.outcome = none := ho
    exact Operation.publish_of_pending hpending _
  simp only [failing, run, perform, fail_of_pending hq.dropped hp, publish, close, List.nil_append,
    List.append_nil]
  rw [hpublish]
  unfold failed
  rw [hq.completion]

/-- A failure that finds the operation done is only logged. -/
theorem run_failing_of_done (hq : s.IsQuiet) (hp : s.operation.isDone = true) (c : Cause) :
    s.run (failing c) = (s, [.noticed (.logged (.lateFailure c))]) := by
  simp [failing, run, perform, fail_of_done hp hq.dropped, publish, close, hq.completion]

/-- So is each of any number of them. -/
theorem run_failings_of_done (hq : s.IsQuiet) (hp : s.operation.isDone = true) (cs : List Cause) :
    s.run (cs.flatMap failing) = (s, cs.map fun c => .noticed (.logged (.lateFailure c))) := by
  induction cs with
  | nil => rfl
  | cons c cs ih =>
    rw [List.flatMap_cons, run_append, run_failing_of_done hq hp, ih]
    rfl

/-- Of the failures that are reported, the first counts. -/
theorem run_failings (hq : s.IsQuiet) (hp : s.operation.isDone = false)
    (ho : s.operation.handle.outcome = none) (c : Cause) (cs : List Cause) :
    s.run ((c :: cs).flatMap failing) = (s.failed c,
      (Notice.ofListeners s.operation.handle.listeners false ++
        cs.map fun c => Notice.logged (.lateFailure c)).map .noticed) := by
  have hlate := run_failings_of_done (s := s.failed c) ⟨hq.completion, hq.dropped⟩ rfl cs
  rw [List.flatMap_cons, run_append, run_failing_of_pending hq hp ho, hlate, List.map_append,
    List.map_map]
  rfl

/-! ## A reply that is overtaken -/

/-- The stream at a point of a delivery. -/
def delivering (s : Stream σ ι) (d : Delivery σ ι) : Stream σ ι := { s with delivery := some d }

theorem IsQuiet.delivering (h : s.IsQuiet) (d : Delivery σ ι) : (s.delivering d).IsQuiet :=
  ⟨h.completion, h.dropped⟩

theorem follow_of_run (h : s.run s.nextMoves = (s', es)) (n : Nat) :
    s.follow (n + 1) = ((s'.follow n).1, es ++ (s'.follow n).2) := by
  simp only [follow, h]

/-- A delivery that has come to its end is followed no further. -/
theorem follow_of_none (hd : s.delivery = none) (n : Nat) : s.follow n = (s, []) := by
  have hstill : s.run s.nextMoves = (s, []) := by
    rw [nextMoves, hd]
    rfl
  induction n with
  | zero => rfl
  | succ n ih => rw [follow_of_run hstill, ih, List.append_nil]

/-- Where no reply waits, none is given up. -/
theorem giveUp_of_none (hd : s.delivery = none) : s.giveUp = (s, []) := by
  have hstall : s.stall = (s, []) := by rw [stall, hd]
  simp only [giveUp, perform, hstall, follow_of_none hd, List.append_nil]

/-- The notices of a reply that is overtaken by failures. -/
def overtakenBy (s : Stream σ ι) (code : UInt8) (cs : List Cause) : List Notice :=
  Notice.ofListeners s.operation.handle.listeners false ++
    cs.map (fun c => .logged (.lateFailure c)) ++ [.logged (.overtaken code)]

/-- A reply in whose processing failures are reported is overtaken by the first of them. -/
theorem receive_of_interrupted (hq : s.IsQuiet) (hd : s.delivery = none)
    (hp : s.operation.isDone = false) (ho : s.operation.handle.outcome = none) {m : Message}
    {reply : σ.Reply} (hm : s.operation.examine m = .ok reply) {c : Cause} {cs : List Cause}
    (hi : s.interruptions reply = c :: cs) :
    s.receive m = (s.failed c,
      .decoded reply :: (s.overtakenBy m.code cs).map .noticed ++ [.accepted .ignored]) := by
  let received := s.delivering (.received m)
  let decoded := s.delivering (.decoded m.code reply)
  let settling := (s.failed c).delivering (.settling m.code (.ok reply))
  let heard := Notice.ofListeners s.operation.handle.listeners false ++
    cs.map fun c => Notice.logged (.lateFailure c)
  have hnone : (s.failed c).delivery = none := hd
  have htake : s.take m = (received, []) := by
    unfold take
    rw [if_neg (by simp [hq.dropped, hd]), if_neg (by simp [hp])]
    rfl
  have hexamine : received.run [.examine] = (decoded, [.decoded reply]) := by
    simp [run, perform, examine, received, delivering, hm, decoded]
  have hshare : decoded.run ((c :: cs).flatMap failing ++ [.share]) =
      (settling, heard.map .noticed) := by
    have hfail := run_failings (s := decoded) (hq.delivering _) hp ho c cs
    rw [run_append, hfail]
    exact Prod.ext rfl (List.append_nil _)
  have hsettle : settling.run [.settle, .publish, .close] =
      (s.failed c, [.noticed (.logged (.overtaken m.code)), .accepted .ignored]) := by
    have hclear : ({ settling with delivery := none } : Stream σ ι) = s.failed c := by
      rw [← hnone]
      rfl
    have hlate : settling.settle =
        (s.failed c, [.noticed (.logged (.overtaken m.code)), .accepted .ignored]) := by
      rw [settle_of_done (s := settling) rfl rfl, hclear]
    have hcompletion : (s.failed c).completion = none := hq.completion
    simp [run, perform, hlate, publish, close, hcompletion]
  have hfollow : received.follow 4 = (s.failed c, .decoded reply :: (heard.map .noticed ++
      [.noticed (.logged (.overtaken m.code)), .accepted .ignored])) := by
    have hmoves : decoded.nextMoves = (c :: cs).flatMap failing ++ [.share] := by
      rw [← hi]
      rfl
    rw [follow_of_run hexamine, follow_of_run (hmoves ▸ hshare), follow_of_run hsettle,
      follow_of_none hnone, List.append_nil]
    rfl
  simp only [receive, start, perform, htake, hfollow, giveUp_of_none hnone]
  simp [overtakenBy, heard]

/-! ## After the end -/

/-- The stream has ended with a failure, and its queue is closed. -/
structure EndedWith (s : Stream σ ι) (c : Cause) (es : List (Event σ ι)) : Prop where
  orderly : s.Orderly
  outcome : s.operation.handle.outcome = some (.error c)
  closed : s.closed = true
  conveys : s.Conveys es
  tells : s.Tells es

namespace EndedWith

variable {c : Cause}

theorem endCause? (h : s.EndedWith c es) : s.endCause? = some c :=
  endCause?_of_failsWith (.inl h.outcome)

theorem perform (h : s.EndedWith c es) (m : Move) :
    (s.perform m).1.EndedWith c (es ++ (s.perform m).2) := by
  have hp := produces_perform s m
  have hs := consumes_perform s m
  have hsucceeds : s.Succeeds es := .fail (h.orderly.standing.decided?_of_outcome h.outcome)
  exact {
    orderly := h.orderly.step hp
    outcome := hp.outcome_of_some h.outcome
    closed := hp.closed_of_closed h.closed
    conveys := h.conveys.step hs
    tells := h.tells.step h.orderly hsucceeds h.conveys hp hs }

theorem run (h : s.EndedWith c es) (ms : List Move) :
    (s.run ms).1.EndedWith c (es ++ (s.run ms).2) :=
  run_records (P := fun s es => s.EndedWith c es) (fun _ _ m h => h.perform m) h ms

/-- The reader gets the items that were queued, and then the failure. -/
theorem reports_prefix (h : s.EndedWith c es) : ∃ n, Event.reports es <+:
    (Event.queuedItems es).map .item ++ .failure c :: List.replicate n .ended := by
  cases h.tells with
  | items hr =>
    refine ⟨0, ?_⟩
    rw [hr]
    exact (h.conveys.handed_prefix.map _).trans (List.prefix_append _ _)
  | ending n ho hr =>
    rw [h.endCause?, ho.all] at hr
    exact ⟨n, hr ▸ List.prefix_refl _⟩

end EndedWith

/-- A reader that was told of no failure yet. -/
def IsFresh (s : Stream σ ι) : Prop := ∀ r, s.claim = .reading r → r.failureReported = false

/-- As long as the operation goes on, nothing but items was reported. -/
theorem Sound.reports_of_pending (h : s.Sound es) (hp : s.operation.isDone = false)
    (hl : s.dropped = false) : Event.reports es = (Event.handed es).map .item ∧ s.IsFresh := by
  cases h.tells with
  | items hr hf => exact ⟨hr, hf⟩
  | ending n ho =>
    have hopen := (h.orderly.standing.of_pending hp).2.2
    have hnone := ho.noProducer
    simp [hasProducer, hopen, hl] at hnone

/-- An operation that goes on ends with a failure, while nothing is told about items. -/
theorem Sound.endedWith_failed (h : s.Sound es) (hq : s.IsQuiet) (hp : s.operation.isDone = false)
    (hqueued : Event.queuedItems fs = []) (hr : Event.reports fs = [])
    (hcl : Event.claims fs = 0) (c : Cause) : (s.failed c).EndedWith c (es ++ fs) where
  orderly := by
    refine ⟨.closed hq.completion rfl rfl rfl, fun hl => ?_⟩
    exact absurd (hq.dropped.symm.trans hl) Bool.false_ne_true
  outcome := rfl
  closed := rfl
  conveys := by
    have hh : Event.handed fs = [] := by simp [Event.handed, hr]
    constructor
    · intro hu
      simpa [hr, hcl] using h.conveys.unclaimed hu
    · simpa [hcl] using h.conveys.claims_le
    · intro hrel
      rw [Event.queuedItems_append, hqueued, Event.handed_append, hh, List.append_nil,
        List.append_nil]
      exact h.conveys.kept hrel
    · simpa [hqueued, hh] using h.conveys.handed_prefix
  tells := by
    obtain ⟨hr', hf⟩ := h.reports_of_pending hp hq.dropped
    refine .items ?_ hf
    rw [Event.reports_append, hr, List.append_nil, hr']
    simp [Event.handed, hr]

/-- The items of a reply that waits for room. -/
def waitingItems (s : Stream σ ι) : List ι :=
  match s.delivery with
  | some (.queueing _ _ rest) => rest
  | _ => []

theorem waitingItems_ofRest {code : UInt8} {reply : σ.Reply} {xs : List ι}
    (hd : s.delivery = some (.ofRest code reply xs)) : s.waitingItems = xs := by
  unfold waitingItems
  rw [hd]
  cases xs <;> rfl

/-- A closed queue gets no items but those of a reply that waits for room already. -/
theorem queued_step_of_closed (hcl : s.closed = true) (hp : Produces s (s', fs)) :
    Event.queuedItems fs ++ s'.waitingItems <+: s.waitingItems := by
  cases hp with
  | still hs hr hq => simp [hq, waitingItems, hs.delivery]
  | @share code reply rest hd hr =>
    obtain ⟨-, rfl⟩ := hr.resolve_left (by simp [hcl])
    exact List.nil_prefix
  | @push code reply i rest hd hc =>
    have hrest : s.waitingItems = i :: rest := by simp [waitingItems, hd]
    rw [hrest, waitingItems_ofRest rfl]
    exact List.prefix_refl _
  | discard _ _ hes => simp [hes.queued, waitingItems]
  | ignore _ _ hes => simp [hes.queued, waitingItems]
  | reject _ _ hes => simp [hes.queued, waitingItems]
  | accept _ _ hes => simp [hes.queued, waitingItems]
  | finish _ _ _ hes => simp [hes.queued, waitingItems]
  | fail _ _ hes => simp [hes.queued, waitingItems]
  | publish _ _ hes => simp [hes.queued, waitingItems]
  | close | drop => exact List.prefix_refl _
  | take | decode | refuse | stall => exact List.nil_prefix

theorem queued_run_of_closed (hcl : s.closed = true) (ms : List Move) :
    Event.queuedItems (s.run ms).2 <+: s.waitingItems := by
  induction ms generalizing s with
  | nil => exact List.nil_prefix
  | cons m ms ih =>
    have hp := produces_perform s m
    have hstep : Event.queuedItems (s.perform m).2 ++ (s.perform m).1.waitingItems <+:
        s.waitingItems := queued_step_of_closed hcl hp
    have hlater := ih (hp.closed_of_closed hcl)
    rw [show (s.run (m :: ms)).2 = (s.perform m).2 ++ ((s.perform m).1.run ms).2 from rfl,
      Event.queuedItems_append]
    exact ((List.prefix_append_right_inj _).2 hlater).trans hstep

/-- Where nothing is queued any more, a reader that is asked for its next item reports. -/
theorem reports_next (hf : s.hasProducer = false) {r : Reader ι} (hc : s.claim = .reading r) :
    ∃ x, Event.reports (s.perform (.read .next)).2 = [x] := by
  have hl := looks_hasNext s r
  simp only [perform, read, hc, ask, next]
  generalize s.hasNext r = x at hl ⊢
  cases hl with
  | @peeked i hp => exact ⟨.item i, by simp [nextItem, hp, Event.report?]⟩
  | @fetch i rest => exact ⟨.item i, by simp [nextItem, Event.report?]⟩
  | wait hp hq hs => exact absurd (hf.symm.trans hs) Bool.false_ne_true
  | @fail c => exact ⟨.failure c, by simp [Event.report?]⟩
  | finish => exact ⟨.ended, by simp [Event.report?]⟩

/-- A queue without a producing end gets none. -/
theorem noProducer_run (h : s.Orderly) (hf : s.hasProducer = false) (ms : List Move) :
    (s.run ms).1.hasProducer = false :=
  (run_keeps (P := fun s => s.Orderly ∧ s.hasProducer = false)
    (fun s m ⟨h, hf⟩ => ⟨h.perform m, (h.stays_over hf (produces_perform s m)).1⟩) ⟨h, hf⟩ ms).2

/-- What a stream that failed comes to, by moves that tell what the second component holds, when the
events were told before. -/
structure RemainsFailed (s : Stream σ ι) (c : Cause) (es : List (Event σ ι))
    (z : Stream σ ι × List (Event σ ι)) : Prop where
  outcome : z.1.operation.handle.outcome = some (.error c)
  phase : z.1.operation.phase = s.operation.phase
  replies : z.1.operation.replies = s.operation.replies
  queued : Event.queuedItems z.2 <+: s.waitingItems
  /-- The reader gets the items that were queued, and then the failure. -/
  reports : ∃ n, Event.reports (es ++ z.2) <+:
    (Event.queuedItems (es ++ z.2)).map .item ++ .failure c :: List.replicate n .ended
  /-- Unless a reply waits for room, the reader reports whenever it is asked for the next item. -/
  next : s.isQueueing = false → ∀ r, z.1.claim = .reading r →
    ∃ report, Event.reports (z.1.perform (.read .next)).2 = [report]

theorem EndedWith.remainsFailed {c : Cause} (h : s.EndedWith c es) (later : List Move) :
    s.RemainsFailed c es (s.run later) := by
  have hlater := h.run later
  have hdecided := h.orderly.standing.decided?_of_outcome h.outcome
  obtain ⟨-, hphase, hreplies⟩ := keeps_run h.orderly hdecided later
  exact {
    outcome := hlater.outcome
    phase := hphase
    replies := hreplies
    queued := queued_run_of_closed h.closed later
    reports := hlater.reports_prefix
    next := by
      intro hidle r hc
      have hgone : s.hasProducer = false := by simp [hasProducer, h.closed, hidle]
      exact reports_next (noProducer_run h.orderly hgone later) hc }

/-! ## Any stream -/

/-- A move leaves which failures are reported while items are made. -/
theorem interruptions_perform (s : Stream σ ι) (m : Move) :
    (s.perform m).1.interruptions = s.interruptions := by
  by_cases hm : m.isConsuming = true
  · exact (sameCalls_perform hm).1.interruptions
  cases m with
  | submit | take | examine | share | push | discard | stall | settle | publish | close | drop =>
    simp only [perform, submit, take, examine, share, push, discard, stall, settle, publish, close,
      drop]
    repeat' split
    all_goals rfl
  | fail c =>
    simp only [perform, fail]
    repeat' split
    all_goals rfl
  | listen l => rfl
  | _ => exact absurd rfl hm

theorem interruptions_run (s : Stream σ ι) (ms : List Move) :
    (s.run ms).1.interruptions = s.interruptions :=
  run_keeps (P := fun t => t.interruptions = s.interruptions)
    (fun t m h => (interruptions_perform t m).trans h) rfl ms

/-- A reply that makes a stream fail is processed like that in a session, also beside a reply that
waits for room. -/
theorem session_receive_of_failed (x : Session σ ι) (hs : x.stream = s) {m : Message} {c : Cause}
    (hm : ({ s with delivery := none } : Stream σ ι).receive m =
      (({ s with delivery := none } : Stream σ ι).failed c, es))
    (hanswer : (Event.answers es).any id = true) :
    x.receive m = ({ x with stream := s.failed c }, .flag true, es) := by
  subst hs
  unfold Session.receive
  cases hd : x.stream.delivery with
  | none =>
    have halone : ({ x.stream with delivery := none } : Stream σ ι) = x.stream := by rw [← hd]
    rw [halone] at hm
    dsimp only
    rw [hm, hanswer]
  | some held =>
    have hheld : ({ ({ x.stream with delivery := none } : Stream σ ι).failed c with
        delivery := some held } : Stream σ ι) = x.stream.failed c := by
      rw [← hd]
      rfl
    dsimp only
    rw [hm]
    dsimp only
    rw [hheld, hanswer]

/-- So it is with a reply that is overtaken. -/
theorem session_receive_of_interrupted (x : Session σ ι) (hs : x.stream = s) (hq : s.IsQuiet)
    (hp : s.operation.isDone = false) (ho : s.operation.handle.outcome = none) {m : Message}
    {reply : σ.Reply} (hm : s.operation.examine m = .ok reply) {c : Cause} {cs : List Cause}
    (hi : s.interruptions reply = c :: cs) :
    x.receive m = ({ x with stream := s.failed c }, .flag true,
      .decoded reply :: (s.overtakenBy m.code cs).map .noticed ++ [.accepted .ignored]) := by
  have halone := receive_of_interrupted (s := { s with delivery := none })
    ⟨hq.completion, hq.dropped⟩ rfl hp ho hm hi
  refine session_receive_of_failed x hs halone ?_
  rw [Event.answers_append]
  simp [Accepted.isFinished]

/-- What is told of a reply that is overtaken is about no items. -/
theorem events_of_overtaken (reply : σ.Reply) (ns : List Notice) :
    let told : List (Event σ ι) := .decoded reply :: ns.map .noticed ++ [.accepted .ignored]
    Event.queuedItems told = [] ∧ Event.reports told = [] ∧ Event.claims told = 0 ∧
      Event.notices told = ns := by
  have hsilent : Event.Silent (ns.map .noticed ++ [.accepted .ignored] : List (Event σ ι)) :=
    Event.silent_accepted (Event.silent_noticed ns) _
  refine ⟨hsilent.queued, hsilent.reports, hsilent.claims, ?_⟩
  simp [Event.notices, List.filterMap_map]

/-- Nothing is left to do for the calls on an operation that goes on. -/
theorem Orderly.isQuiet (h : s.Orderly) (hp : s.operation.isDone = false)
    (hl : s.dropped = false) : s.IsQuiet := ⟨(h.standing.of_pending hp).1, hl⟩

/-- The moves by which a stream fails pass all its milestones. -/
theorem trail_failed (h : s.Orderly) (hp : s.operation.isDone = false) {c : Cause}
    {ms : List Move} (hms : (s.run ms).1 = s.failed c) : s.trail ms = milestones (.error c) := by
  obtain ⟨hc, ho, hcl⟩ := h.standing.of_pending hp
  have hpassed := passed_run h ms
  have hbefore : s.passed = [] := by simp [passed, decided?, hc, ho, hcl]
  have hafter : (s.failed c).passed = milestones (.error c) := by
    simp [passed, decided?, failed, hc, milestones]
  rw [hms, hbefore, hafter, List.nil_append] at hpassed
  exact hpassed.symm

/-- Only the call that decides the outcome has something left to do. -/
theorem passes_of_completion (h : s.Orderly) (hp : Produces s (s', fs)) (hc : s.completion = none)
    (hm : s'.completion ≠ none) : ∃ o, s.passes s' = [.decided o] := by
  have hdecides {o : Outcome σ.Output} (hopen : s.operation.isDone = false)
      (hh : s'.operation.handle = s.operation.handle) (hcl : s'.closed = s.closed)
      (hc' : s'.completion = some (.publishing o)) : ∃ o, s.passes s' = [.decided o] := by
    obtain ⟨-, hout, hclosed⟩ := h.standing.of_pending hopen
    refine ⟨o, ?_⟩
    simp [passes, decided?, hc, hc', hh, hout, hcl, hclosed, Handle.isDone]
  cases hp with
  | still hs => exact absurd (hs.completion.trans hc) hm
  | reject hd hp => exact hdecides hp rfl rfl rfl
  | finish hd hp => exact hdecides hp rfl rfl rfl
  | fail hp => exact hdecides hp rfl rfl rfl
  | publish hc' =>
    rw [hc] at hc'
    cases hc'
  | close => exact absurd rfl hm
  | _ => exact absurd hc hm

/-- Only its last step closes the queue. -/
theorem completion_of_closed (hp : Produces s (s', fs)) (hcl : s.closed = false)
    (hm : s'.closed = true) : s.completion = some .closing := by
  cases hp with
  | still hs => exact absurd (hcl.symm.trans (hs.closed.symm.trans hm)) Bool.false_ne_true
  | close hc => exact hc
  | _ => exact absurd (hcl.symm.trans hm) Bool.false_ne_true

/-- The moves by which a reply is overtaken pass all milestones of the stream. -/
theorem trail_of_interrupted (h : s.Orderly) (hp : s.operation.isDone = false)
    (hl : s.dropped = false) {m : Message} {reply : σ.Reply}
    (hm : s.operation.examine m = .ok reply) {c : Cause} {cs : List Cause}
    (hi : s.interruptions reply = c :: cs) :
    ∃ moves, ({ s with delivery := none } : Stream σ ι).run moves =
        ({ s.failed c with delivery := none },
          .decoded reply :: (s.overtakenBy m.code cs).map .noticed ++ [.accepted .ignored]) ∧
      ({ s with delivery := none } : Stream σ ι).trail moves = milestones (.error c) := by
  obtain ⟨hc, hout, -⟩ := h.standing.of_pending hp
  have hclear : ({ s with delivery := none } : Stream σ ι).Orderly := by
    refine ⟨h.standing.of_eq rfl rfl rfl, fun hl' => ?_⟩
    exact absurd (hl.symm.trans hl') Bool.false_ne_true
  have hreceive := receive_of_interrupted (s := { s with delivery := none }) ⟨hc, hl⟩ rfl hp hout
    hm hi
  obtain ⟨moves, hmoves⟩ := receive_isRun ({ s with delivery := none } : Stream σ ι) m
  rw [hreceive] at hmoves
  exact ⟨moves, hmoves, trail_failed hclear hp (congrArg Prod.fst hmoves)⟩

/-- The first failure of an operation that goes on decides, whatever happens then. -/
theorem run_fail_of_pending (h : s.Orderly) (hp : s.operation.isDone = false)
    (hl : s.dropped = false) (c : Cause) (later : List Move) :
    let z := s.run (.fail c :: later)
    z.1.decided? = some (.error c) ∧ z.1.operation.phase = .done false ∧
      z.1.operation.replies = s.operation.replies ∧ ∀ a ∈ Event.answers z.2, a = true := by
  intro z
  let s₁ : Stream σ ι := { s with
    operation := { s.operation with phase := .done false }
    completion := some (.publishing (.error c)) }
  have hfail : s.fail c = (s₁, []) := fail_of_pending hl hp c
  have hz : z = s₁.run later := by
    show ((s.fail c).1.run later |>.1, (s.fail c).2 ++ ((s.fail c).1.run later).2) = s₁.run later
    rw [hfail]
    rfl
  have hs₁ : s₁.Orderly := by
    have hstep : (s.perform (.fail c)).1.Orderly := h.perform (.fail c)
    rwa [show s.perform (.fail c) = (s₁, []) from hfail] at hstep
  obtain ⟨hd, hphase, hreplies⟩ := keeps_run hs₁ (o := .error c) rfl later
  rw [hz]
  exact ⟨hd, hphase, hreplies, answers_run hs₁ rfl later⟩

/-- **A failure that arrives while a reply is processed wins, and completes once.** -/
theorem failure_overtakes_reply (k : StreamKind σ ι) (config : StreamConfig) (ms : List Move) :
    let s := ((ofKind k config).run ms).1
    let es := ((ofKind k config).run ms).2
    -- a reply in whose processing failures are reported, while the operation goes on
    (∀ (x : Session σ ι) (m : Message) (reply : σ.Reply) (c : Cause) (cs : List Cause),
      x.stream = s → s.operation.isDone = false → s.dropped = false →
      s.operation.examine m = .ok reply → k.interruptions reply = c :: cs →
      let y := x.receive m
      y.2.1 = .flag true ∧ y.1.stream = s.failed c ∧ Event.queuedItems y.2.2 = [] ∧
      Event.notices y.2.2 = s.overtakenBy m.code cs ∧
      -- it passes each milestone once
      (∃ moves, ({ s with delivery := none } : Stream σ ι).run moves =
          ({ s.failed c with delivery := none }, y.2.2) ∧
        ({ s with delivery := none } : Stream σ ι).trail moves = milestones (.error c)) ∧
      -- whatever happens then
      ∀ later, y.1.stream.RemainsFailed c (es ++ y.2.2) (y.1.stream.run later)) ∧
    -- the steps of calls, in any order
    (∃ o, (ofKind k config).trail ms <+: milestones o) ∧
    (∀ o, s.completion = some (.publishing o) → s.operation.handle.outcome = none) ∧
    (∀ m, s.completion = none → (s.perform m).1.completion ≠ none →
      ∃ o, s.passes (s.perform m).1 = [.decided o]) ∧
    (∀ m, s.closed = false → (s.perform m).1.closed = true → s.completion = some .closing) ∧
    (s.operation.isDone = true → ∃ o, s.decided? = some o ∧ s.operation.phase = .done o.isOk ∧
      (ofKind k config).trail (ms ++ [.publish, .close]) = milestones o ∧
      ∀ m, (m = .settle ∨ ∃ c, m = .fail c) →
        (s.perform m).1.operation = s.operation ∧ (s.perform m).1.completion = s.completion ∧
          (s.perform m).1.closed = s.closed) ∧
    -- the first failure of an operation that goes on
    (s.operation.isDone = false → s.dropped = false → ∀ c later,
      let z := s.run (.fail c :: later)
      z.1.decided? = some (.error c) ∧ z.1.operation.phase = .done false ∧
        z.1.operation.replies = s.operation.replies ∧ ∀ a ∈ Event.answers z.2, a = true) := by
  intro s es
  have hstart := sound_ofKind k config
  have hsound : s.Sound es := by
    have hrun := hstart.run ms
    rwa [List.nil_append] at hrun
  have horderly := hsound.orderly
  refine ⟨?_, trail_prefix k config ms, fun o ho => (horderly.standing.of_publishing ho).2.1,
    fun m hc hm => passes_of_completion horderly (produces_perform s m) hc hm,
    fun m hcl hm => completion_of_closed (produces_perform s m) hcl hm, ?_, ?_⟩
  · intro x m reply c cs hx hp hl hm hk y
    have hquiet := horderly.isQuiet hp hl
    obtain ⟨-, hout, -⟩ := horderly.standing.of_pending hp
    have hi : s.interruptions reply = c :: cs := (congrFun (interruptions_run _ ms) reply).trans hk
    have hy : y = ({ x with stream := s.failed c }, .flag true,
        .decoded reply :: (s.overtakenBy m.code cs).map .noticed ++ [.accepted .ignored]) :=
      session_receive_of_interrupted x hx hquiet hp hout hm hi
    obtain ⟨hqueued, hreports, hclaims, hnotices⟩ :=
      events_of_overtaken (ι := ι) reply (s.overtakenBy m.code cs)
    have hended := hsound.endedWith_failed hquiet hp hqueued hreports hclaims c
    rw [hy]
    exact ⟨rfl, rfl, hqueued, hnotices, trail_of_interrupted horderly hp hl hm hi,
      fun later => hended.remainsFailed later⟩
  · intro hp
    have hsome := horderly.standing.decided?_isSome
    rw [hp, Option.isSome_iff_exists] at hsome
    obtain ⟨o, ho⟩ := hsome
    have hsignals : s.Signals := Signals.run hstart.orderly (fun _ ho => by cases ho) ms
    exact ⟨o, ho, hsignals o ho, trail_finished k config ho, fun m hm => late_step hp hm⟩
  · exact run_fail_of_pending horderly

/-- Each reply reports two failures while its items are made. -/
def frail : StreamKind ⟨Bytes, List Bytes, Unit⟩ UInt8 := { octets with
  interruptions := fun _ => [.transport "lost", .transport "late"] }

theorem failure_overtakes_reply_frail :
    (({ stream := (ofKind frail onePlace).execute.1 } : Session _ _).receive ⟨2, [7, 0]⟩).1.stream =
      (ofKind frail onePlace).execute.1.failed (.transport "lost") :=
  ((failure_overtakes_reply frail onePlace [.takeResults, .submit]).1 _ ⟨2, [7, 0]⟩ _ _ _ rfl rfl
    rfl rfl rfl).2.1

end StoreClient.Stream
