import StoreClient.Proofs.Stream.Returning

/-!
# Streams that stall

A reply whose items find no room while nobody reads makes the operation fail as stalled (`Stalls`).
The reader gets what it had ready and what is queued, and then the failure (`Drains`). All other
replies come to what they come to for a plain operation (`GoesOn`), and so do those of which nobody
will read the items. Which it is depends on nothing but the room when the reply is taken up, the
number of its items and the consumer (`ComesTo`).
-/

namespace StoreClient.Stream

variable {σ : Signature} {ι : Type} {s s' t : Stream σ ι} {es fs : List (Event σ ι)}

/-! ## Reading what is left -/

/-- From now on a reader is told of the items that are ready or queued, and then of the failure. -/
structure Drains (s : Stream σ ι) (c : Cause) : Prop where
  /-- Whatever happens, no other items are queued but those of a reply that waits for room. -/
  yields : ∀ later, Event.queuedItems (s.run later).2 <+: s.waitingItems ∧
    Yields (s.peeked ++ s.queue ++ Event.queuedItems (s.run later).2) (some c)
      (Event.reports (s.run later).2)
  /-- Unless one waits, a reader gets to the failure by asking for the next item. -/
  reads : s.isQueueing = false → ∀ later r, (s.run later).1.claim = .reading r →
    ∀ n, (s.peeked ++ s.queue).length < n → ∃ j,
      Event.reports (s.run (later ++ List.replicate n (.read .next))).2 =
        (s.peeked ++ s.queue).map .item ++ ending (some c) j

theorem Conveys.run (h : s.Conveys es) (ms : List Move) :
    (s.run ms).1.Conveys (es ++ (s.run ms).2) :=
  run_records (fun s _ mv h => h.step (consumes_perform s mv)) h ms

/-- A reader that finds no producing end reports something each time it is asked for the next item.
-/
theorem length_reports_nexts (hf : s.hasProducer = false) {r : Reader ι}
    (hc : s.claim = .reading r) (n : Nat) :
    (Event.reports (s.run (List.replicate n (.read .next))).2).length = n := by
  induction n generalizing s r with
  | zero => rfl
  | succ n ih =>
    obtain ⟨hc', hf'⟩ := perform_next hc
    obtain ⟨x, hx⟩ := reports_next hf hc
    show (Event.reports ((s.perform (.read .next)).2 ++
      ((s.perform (.read .next)).1.run (List.replicate n (.read .next))).2)).length = n + 1
    rw [Event.reports_append, hx, List.length_append, ih (hf'.trans hf) hc',
      List.length_singleton, Nat.add_comm]

/-- A stream that has ended with a failure of which nothing was reported drains. -/
theorem EndedWith.drains {c : Cause} (h : s.EndedWith c es)
    (hr : Event.reports es = (Event.handed es).map .item) (hc : s.claim ≠ .released) :
    s.Drains c := by
  have hyields (later : List Move) : Event.queuedItems (s.run later).2 <+: s.waitingItems ∧
      Yields (s.peeked ++ s.queue ++ Event.queuedItems (s.run later).2) (some c)
        (Event.reports (s.run later).2) := by
    refine ⟨queued_run_of_closed h.closed later, ?_⟩
    have hlater := h.run later
    have hqueued : Event.queuedItems (es ++ (s.run later).2) = Event.handed es ++
        (s.peeked ++ s.queue ++ Event.queuedItems (s.run later).2) := by
      rw [Event.queuedItems_append, h.conveys.kept hc]
      simp only [List.append_assoc]
    cases hlater.tells with
    | items hr' =>
      left
      rw [Event.reports_append, Event.handed_append, List.map_append, hr,
        List.append_cancel_left_eq] at hr'
      have hprefix := hlater.conveys.handed_prefix
      rw [hqueued, Event.handed_append, List.prefix_append_right_inj] at hprefix
      rw [hr']
      exact hprefix.map _
    | ending n ho hr' =>
      right
      refine ⟨n, ?_⟩
      rw [ho.all, hlater.endCause?, hqueued, List.map_append, Event.reports_append, hr,
        List.append_assoc, List.append_cancel_left_eq] at hr'
      exact hr'
  refine ⟨hyields, fun hidle later r hc' n hn => ?_⟩
  have hnone : s.waitingItems = [] := by
    unfold isQueueing at hidle
    unfold waitingItems
    split
    · next hd => simp [hd] at hidle
    · rfl
  have hgone : s.hasProducer = false := by simp [hasProducer, h.closed, hidle]
  obtain ⟨hqueued, hall⟩ := hyields (later ++ List.replicate n (.read .next))
  rw [hnone, List.prefix_nil] at hqueued
  rw [hqueued, List.append_nil] at hall
  refine hall.resolve_left fun hfirst => ?_
  have hle := hfirst.length_le
  rw [run_append, Event.reports_append, List.length_append,
    length_reports_nexts (noProducer_run h.orderly hgone later) hc', List.length_map] at hle
  omega

theorem IsFresh.step (h : s.IsFresh) (hs : Consumes s (s', fs)) (hr : Event.reports fs = []) :
    s'.IsFresh := by
  intro r' hc'
  cases hs with
  | still hc => exact h r' (hc ▸ hc')
  | push hd hc => exact h r' (hc ▸ hc')
  | fail hc hp hq hs hf hcause he => simp [he.1] at hr
  | claim hc =>
    cases hc'
    rfl
  | fetch hc =>
    cases hc'
    exact (h _ hc :)
  | hand hc =>
    cases hc'
    exact (h _ hc :)
  | pass hc =>
    cases hc'
    exact (h _ hc :)
  | finish hc =>
    cases hc'
    exact h _ hc
  | keep hc hp hf =>
    cases hc'
    exact hf.trans (h _ hc)
  | release => cases hc'

theorem IsFresh.run (h : s.IsFresh) {ms : List Move} (hr : Event.reports (s.run ms).2 = []) :
    (s.run ms).1.IsFresh := by
  induction ms generalizing s with
  | nil => exact h
  | cons mv ms ih =>
    have hsplit : Event.reports (s.perform mv).2 ++
        Event.reports ((s.perform mv).1.run ms).2 = [] := by
      rw [← Event.reports_append]
      exact hr
    obtain ⟨hnow, hlater⟩ := List.append_eq_nil_iff.1 hsplit
    exact ih (h.step (consumes_perform s mv) hnow) hlater

/-! ## What replies come to -/

/-- The items of a reply are queued, and the call goes on like that of a plain operation, after the
notices given. -/
structure GoesOn (s : Stream σ ι) (m : Message) (xs : List ι) (before : List Notice)
    (z : Stream σ ι × List (Event σ ι)) : Prop where
  queue : z.1.queue = s.queue ++ xs
  operation : z.1.operation = (s.operation.receive m).1
  closed : z.1.closed = z.1.operation.isDone
  told : Told z.2 xs [(s.operation.receive m).2.1.isFinished]
    (before ++ (s.operation.receive m).2.2)

/-- The items of a reply are queued until the queue is full, and the operation fails. -/
structure Stalls (s : Stream σ ι) (m : Message) (xs : List ι) (c : Cause)
    (z : Stream σ ι × List (Event σ ι)) : Prop where
  queue : z.1.queue = s.queue ++ xs.take (s.capacity - s.queue.length)
  full : z.1.queue.length = s.capacity
  /-- The reply is not kept, also if it was the last one. -/
  operation : z.1.operation =
    { s.operation with phase := .done false, handle := ⟨some (.error c), []⟩ }
  closed : z.1.closed = true
  told : Told z.2 (xs.take (s.capacity - s.queue.length)) [true]
    (.logged (.operationFailed m.code c) :: Notice.ofListeners s.operation.handle.listeners false)
  drains : z.1.Drains c

/-- What a reply with some items comes to that is processed while nobody reads. -/
structure ComesTo (s : Stream σ ι) (m : Message) (xs : List ι)
    (z : Stream σ ι × List (Event σ ι)) : Prop where
  fits : z.1.hasConsumer = true → s.queue.length + xs.length ≤ s.capacity → s.GoesOn m xs [] z
  stalls : z.1.hasConsumer = true → s.capacity < s.queue.length + xs.length →
    s.Stalls m xs (.consumerStalled s.patience.milliseconds) z
  unread : s.hasConsumer = false →
    s.GoesOn m [] (if xs.isEmpty then [] else [.logged .consumerGone]) z

/-- When the call has returned, the reply has been settled. -/
theorem Processing.settled {m : Message} {reply : σ.Reply} (h : Processing s m reply t es)
    (hr : t.hasReturned = true) :
    t.operation = (s.operation.settle m.code (s.verdict reply)).1 ∧
      t.closed = t.operation.isDone ∧ t.queue = s.queue ++ s.fitting reply ∧
      Told es (s.fitting reply) [(s.operation.settle m.code (s.verdict reply)).2.1.isFinished]
        (s.given reply ++ (s.operation.settle m.code (s.verdict reply)).2.2) := by
  obtain ⟨hd, hc⟩ := hasReturned_iff.1 hr
  cases h with
  | received hd' => cases hd.symm.trans hd'
  | decoded hd' => cases hd.symm.trans hd'
  | queueing hn hf => cases hd.symm.trans hf.delivery
  | settling hd' => cases hd.symm.trans hd'
  | publishing _ _ _ hc' => cases hc.symm.trans hc'
  | closing _ _ _ hc' => cases hc.symm.trans hc'
  | returned _ ho _ hcl hq hes => exact ⟨ho, hcl, hq, hes⟩

/-- A stream that failed while nobody read drains, whatever delivery goes on. -/
theorem drains_of_failed {c : Cause} (hv : t.Conveys es)
    (hr : Event.reports es = (Event.handed es).map .item) (hfresh : t.IsFresh)
    (hl : t.dropped = false) (hc : t.completion = none) (hp : t.operation.isDone = true)
    (ho : t.operation.handle.outcome = some (.error c)) (hcl : t.closed = true)
    (hcons : t.hasConsumer = true) (d : Option (Delivery σ ι)) :
    ({ t with delivery := d } : Stream σ ι).Drains c := by
  have hrel : t.claim ≠ .released := by
    intro hrel
    simp [hasConsumer, hrel] at hcons
  have hended : ({ t with delivery := d } : Stream σ ι).EndedWith c es :=
    { orderly :=
        ⟨.closed hc hp ho hcl, fun hl' => absurd (hl.symm.trans hl') Bool.false_ne_true⟩
      outcome := ho
      closed := hcl
      conveys := ⟨hv.unclaimed, hv.claims_le, hv.kept, hv.handed_prefix⟩
      tells := .items hr hfresh }
  exact hended.drains hr hrel

/-! ## Replies beside others -/

/-- The stream as a reply finds it that is processed beside another. -/
def beside (s : Stream σ ι) : Stream σ ι := { s with delivery := none }

section Call

variable {m : Message} {reply : σ.Reply} {moves : List Move} {z : Stream σ ι × List (Event σ ι)}
  (h : s.Sound es) (hp : s.operation.isDone = false) (hl : s.dropped = false)
  (hx : s.operation.examine m = .ok reply)
  (hms : ∀ mv ∈ moves, mv.isProcessing = true ∨ mv.isHandling = true)
  (hz : s.beside.run (.take m :: moves) = z) (hreturned : z.1.hasReturned = true)

include h hp hl hx hms hz in
/-- A reply is taken up, and nobody reads. -/
theorem processing_of_run (hstays : z.1.hasConsumer = s.hasConsumer) :
    Processing s.beside m reply z.1 z.2 ∧ s.beside.SameSetup z.1 := by
  obtain ⟨hc, -, hcl⟩ := h.orderly.standing.of_pending hp
  let received := s.beside.delivering (.received m)
  have htake : s.beside.perform (.take m) = (received, []) := by
    show s.beside.take m = _
    unfold take
    rw [if_neg (by simp [beside, hl]), if_neg (by simp [beside, hp])]
    rfl
  have hrun : received.run moves = z := by
    simpa only [run, htake, List.nil_append] using hz
  have hstart : Processing s.beside m reply received [] :=
    .received rfl rfl hc hcl rfl ⟨rfl, rfl, rfl, rfl⟩
  have hend := hstart.run ⟨rfl, rfl, rfl, rfl, rfl⟩ hp hx hms (hrun ▸ hstays)
  rwa [hrun] at hend

include hp hx in
theorem receive_of_examined : s.operation.receive m = s.operation.settle m.code (.ok reply) := by
  rw [Operation.receive, if_neg (Bool.eq_false_iff.1 hp), hx]

include h hp hl hx hms hz hreturned

/-- If there is room for all items, or nobody to read them, the call goes on. -/
theorem goesOn_of_verdict (hstays : z.1.hasConsumer = s.hasConsumer)
    (hv : s.beside.verdict reply = .ok reply) :
    s.GoesOn m (s.beside.fitting reply) (s.beside.given reply)
      ({ z.1 with delivery := s.delivery }, z.2) := by
  have hprocessing := (processing_of_run h hp hl hx hms hz hstays).1
  obtain ⟨ho, hcl, hq, hes⟩ := hprocessing.settled hreturned
  rw [hv] at ho hes
  have hplain := receive_of_examined hp hx
  exact ⟨hq, hplain ▸ ho, hcl, hplain ▸ hes⟩

/-- If there is not, the operation fails, and what is queued is read. -/
theorem stalls_of_overflow (hbound : s.queue.length ≤ s.capacity) (hc : z.1.hasConsumer = true)
    (hover : s.capacity < s.queue.length + (s.items reply).length) :
    s.Stalls m (s.items reply) (.consumerStalled s.patience.milliseconds)
      ({ z.1 with delivery := s.delivery }, z.2) := by
  have hcons : s.beside.hasConsumer = true := hasConsumer_run _ (hz ▸ hc)
  have hroom : s.beside.room = s.capacity - s.queue.length := room_of_consumer hcons
  have hfull : s.beside.room < (s.beside.items reply).length := by
    rw [hroom]
    exact Nat.sub_lt_left_of_lt_add hbound hover
  have hfitting : s.beside.fitting reply =
      (s.items reply).take (s.capacity - s.queue.length) := by
    rw [fitting, hroom]
    rfl
  obtain ⟨-, hout, -⟩ := h.orderly.standing.of_pending hp
  have hsettle := Operation.settle_error (show s.beside.operation.isDone = false from hp) hout
    m.code (.consumerStalled s.beside.patience.milliseconds)
  obtain ⟨hprocessing, hsetup⟩ := processing_of_run h hp hl hx hms hz (hc.trans hcons.symm)
  obtain ⟨ho, hcl, hq, hes⟩ := hprocessing.settled hreturned
  rw [verdict_of_overflow hcons hfull, hsettle] at ho hes
  rw [hfitting] at hq hes
  rw [given_of_consumer hcons] at hes
  have hdone : z.1.operation.isDone = true := by
    rw [ho]
    rfl
  have hlength : z.1.queue.length = s.capacity := by
    rw [hq, List.length_append, List.length_take]
    show s.queue.length + _ = s.capacity
    omega
  have hdrains := by
    obtain ⟨hbefore, hfresh⟩ := h.reports_of_pending hp hl
    have hv : s.beside.Conveys es :=
      ⟨h.conveys.unclaimed, h.conveys.claims_le, h.conveys.kept, h.conveys.handed_prefix⟩
    have hr : Event.reports (es ++ z.2) = (Event.handed (es ++ z.2)).map .item := by
      have hnone : Event.handed z.2 = [] := by
        rw [Event.handed, hes.reports]
        rfl
      rw [Event.reports_append, Event.handed_append, hes.reports, hnone, List.append_nil,
        List.append_nil, hbefore]
    have hv' := hv.run (.take m :: moves)
    have hfresh' := IsFresh.run (s := s.beside) hfresh (hz ▸ hes.reports)
    rw [hz] at hv' hfresh'
    exact drains_of_failed hv' hr hfresh' (hsetup.dropped.trans hl)
      (hasReturned_iff.1 hreturned).2 hdone (congrArg (·.handle.outcome) ho) (hcl.trans hdone) hc
      s.delivery
  exact ⟨hq, hlength, ho, hcl.trans hdone, hes, hdrains⟩

/-- **What a reply comes to that is processed while nobody reads.** -/
theorem comesTo (hbound : s.queue.length ≤ s.capacity) :
    s.ComesTo m (s.items reply) ({ z.1 with delivery := s.delivery }, z.2) := by
  have hbefore (hc : z.1.hasConsumer = true) : s.beside.hasConsumer = true :=
    hasConsumer_run _ (hz ▸ hc)
  constructor
  · intro hc hfits
    have hcons := hbefore hc
    have hroom : (s.beside.items reply).length ≤ s.beside.room := by
      rw [room_of_consumer hcons]
      exact Nat.le_sub_of_add_le' hfits
    have hgoes := goesOn_of_verdict h hp hl hx hms hz hreturned (hc.trans hcons.symm)
      (verdict_of_fits hroom)
    rwa [fitting, List.take_of_length_le hroom, given_of_consumer hcons] at hgoes
  · intro hc hover
    exact stalls_of_overflow h hp hl hx hms hz hreturned hbound hc hover
  · intro hcons
    have hcons' : s.beside.hasConsumer = false := hcons
    have hgone : z.1.hasConsumer = false := by
      refine Bool.eq_false_iff.2 fun hc => ?_
      exact absurd (hcons'.symm.trans (hbefore hc)) Bool.false_ne_true
    have hgiven : s.beside.given reply =
        if (s.items reply).isEmpty then [] else [.logged .consumerGone] := by
      rw [given, hcons', Bool.false_or]
      rfl
    have hgoes := goesOn_of_verdict h hp hl hx hms hz hreturned (hgone.trans hcons.symm)
      (verdict_of_unread hcons' reply)
    rwa [fitting, room_of_unread hcons', List.take_zero, hgiven] at hgoes

end Call

/-- A reply that is fed in a session, with no failure reported from inside, comes to its end by
moves of its call. -/
theorem session_receive (h : s.Orderly) (hp : s.operation.isDone = false) (hl : s.dropped = false)
    {m : Message} {reply : σ.Reply} (hx : s.operation.examine m = .ok reply)
    (hi : s.interruptions reply = []) (x : Session σ ι) (hs : x.stream = s) :
    ∃ ms, (∀ mv ∈ ms, mv.isProcessing = true) ∧
      let z := s.beside.run (.take m :: ms)
      z.1.hasReturned = true ∧ z.1.hasConsumer = s.hasConsumer ∧
      x.receive m = ({ x with stream := { z.1 with delivery := s.delivery } },
        .flag ((Event.answers z.2).any id), z.2) := by
  subst hs
  obtain ⟨hc, -, hcl⟩ := h.standing.of_pending hp
  obtain ⟨ms, hms, hreceive, hreturned⟩ :=
    receive_returns (s := x.stream.beside) ⟨hc, hl⟩ rfl hp hcl hx hi
  rw [hreceive] at hreturned
  have hcons : (x.stream.beside.run (.take m :: ms)).1.hasConsumer = x.stream.hasConsumer := by
    have htake : (x.stream.beside.perform (.take m)).1.hasConsumer = x.stream.hasConsumer := by
      simp only [perform, take]
      repeat' split
      all_goals rfl
    exact (hasConsumer_processing _ hms).trans htake
  refine ⟨ms, hms, hreturned, hcons, ?_⟩
  unfold Session.receive
  cases hd : x.stream.delivery with
  | some held =>
    dsimp only
    rw [show ({ x.stream with delivery := none } : Stream σ ι).receive m = _ from hreceive]
  | none =>
    have hbeside : x.stream.beside = x.stream := by
      rw [beside, ← hd]
    have hnone := (hasReturned_iff.1 hreturned).1
    rw [hbeside] at hreceive hnone ⊢
    dsimp only
    rw [hreceive, ← hnone]

/-! ## Any stream -/

/-- **The queue is bounded, and a reply stalls exactly if its items find no room.** -/
theorem bounded_queue (k : StreamKind σ ι) (config : StreamConfig) (ms : List Move) :
    let s := ((ofKind k config).run ms).1
    -- the places and the patience
    (s.capacity = config.queueCapacity.toNat ∧ s.queue.length ≤ s.capacity) ∧
    (s.patience = config.pollTimeout ∧ s.patience.milliseconds.toNat =
      min (config.pollTimeout.nanoseconds / 1000000) (UInt64.size - 1)) ∧
    -- a reply that is taken up, also beside another
    (∀ (m : Message) (reply : σ.Reply), s.operation.isDone = false → s.dropped = false →
      s.operation.examine m = .ok reply →
      -- with any moves of the call and of a consumer that does not read
      (∀ moves, (∀ mv ∈ moves, mv.isProcessing = true ∨ mv.isHandling = true) →
        let z := s.beside.run (.take m :: moves)
        z.1.hasReturned = true →
          s.ComesTo m (k.items reply) ({ z.1 with delivery := s.delivery }, z.2)) ∧
      -- with the moves of the call alone, which returns
      (k.interruptions reply = [] → ∀ x : Session σ ι, x.stream = s →
        let y := x.receive m
        s.ComesTo m (k.items reply) (y.1.stream, y.2.2) ∧
          y.1.stream.hasConsumer = s.hasConsumer ∧
          y.2.1 = .flag ((Event.answers y.2.2).any id))) ∧
    -- without a consumer nothing stalls, and none comes back
    (s.hasConsumer = false → ∀ later, (s.run later).1.hasConsumer = false ∧
      (s.run later).1.perform .stall = ((s.run later).1, [])) := by
  intro s
  have hsound := (sound_ofKind k config).run ms
  obtain ⟨hcapacity, hpatience⟩ := setup_run k config ms
  have hbound : s.queue.length ≤ s.capacity := by
    rw [hcapacity]
    exact length_queue_le k config ms
  have hitems : s.items = k.items := items_run _ ms
  refine ⟨⟨hcapacity, hbound⟩, ⟨hpatience, ?_⟩, ?_, ?_⟩
  · rw [hpatience]
    exact Duration.milliseconds_toNat _
  · intro m reply hp hl hx
    have hcomes {moves : List Move}
        (hms : ∀ mv ∈ moves, mv.isProcessing = true ∨ mv.isHandling = true)
        (hreturned : (s.beside.run (.take m :: moves)).1.hasReturned = true) :=
      comesTo hsound hp hl hx hms rfl hreturned hbound
    rw [hitems] at hcomes
    refine ⟨fun moves hms hreturned => hcomes hms hreturned, fun hi x hs => ?_⟩
    have hi' : s.interruptions reply = [] := (congrFun (interruptions_run _ ms) reply).trans hi
    obtain ⟨moves, hms, hreturned, hcons, hreceive⟩ :=
      session_receive hsound.orderly hp hl hx hi' x hs
    intro y
    rw [show y = _ from hreceive]
    exact ⟨hcomes (fun mv hm => .inl (hms mv hm)) hreturned, hcons, rfl⟩
  · intro hcons later
    have hgone : (s.run later).1.hasConsumer = false := by
      refine Bool.eq_false_iff.2 fun hc => ?_
      exact absurd (hcons.symm.trans (hasConsumer_run later hc)) Bool.false_ne_true
    exact ⟨hgone, stall_of_noConsumer hgone⟩

theorem bounded_queue_octets :
    let s := (ofKind octets onePlace).execute.1
    let y := ({ stream := s } : Session _ _).receive ⟨2, [7, 8, 0]⟩
    s.Stalls ⟨2, [7, 8, 0]⟩ [7, 8] (.consumerStalled 30000) (y.1.stream, y.2.2) :=
  (((bounded_queue octets onePlace [.takeResults, .submit]).2.2.1 ⟨2, [7, 8, 0]⟩ _ rfl rfl
    rfl).2 rfl { stream := _ } rfl).1.stalls rfl (by decide)

/-- The item that found the place is read, and then the failure. -/
example :
    let s := (ofKind octets onePlace).execute.1
    let y := ({ stream := s } : Session _ _).receive ⟨2, [7, 8, 0]⟩
    Event.reports (y.1.stream.run [.claim 0, .read .next, .read .next, .read .next]).2 =
      [.item 7, .failure (.consumerStalled 30000), .ended] := by
  rfl

end StoreClient.Stream
