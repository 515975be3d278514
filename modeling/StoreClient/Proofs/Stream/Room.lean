import StoreClient.Proofs.Stream.Overtaking
import StoreClient.Proofs.Stream.Reading

/-!
# Room in the queue

The queue never holds more items than it has places (`length_queue_le`).

While a reply is processed and nobody takes items from the queue, the moves of the call may come in
any order, with whatever else the consumer does between them: the items find room in their order
until the queue is full (`Processing`). So it is known what a reply comes to before it is processed
(`verdict`): it is settled like that of a plain operation if there is room for all its items, or
nobody to read them, and else the operation fails as stalled.
-/

namespace StoreClient.Stream

variable {σ : Signature} {ι : Type} {s t t' : Stream σ ι} {es fs : List (Event σ ι)} {mv : Move}

/-! ## The places of the queue -/

theorem looks_same {r : Reader ι} {x : Stream σ ι × Reader ι × Except StreamError Bool}
    (h : Looks s r x) :
    x.1.capacity = s.capacity ∧ x.1.patience = s.patience ∧ x.1.queue <:+ s.queue := by
  cases h with
  | fetch hp hq =>
    rw [hq]
    exact ⟨rfl, rfl, List.suffix_cons _ _⟩
  | _ => exact ⟨rfl, rfl, List.suffix_refl _⟩

/-- A reader takes items, and changes nothing else about the queue. -/
theorem ask_same (s : Stream σ ι) (r : Reader ι) (what : Reading) :
    (s.ask r what).1.capacity = s.capacity ∧ (s.ask r what).1.patience = s.patience ∧
      (s.ask r what).1.queue <:+ s.queue := by
  have hl := looks_hasNext s r
  cases what with
  | hasNext => exact looks_same hl
  | next =>
    simp only [ask, next]
    generalize s.hasNext r = x at hl ⊢
    have hsame := looks_same hl
    obtain ⟨_, _, _ | _ | _⟩ := x <;> exact hsame
  | _ => exact ⟨rfl, rfl, List.suffix_refl _⟩

/-- Only a push makes the queue longer, and no move changes how many places it has. -/
theorem queue_perform (s : Stream σ ι) (mv : Move) :
    (s.perform mv).1.capacity = s.capacity ∧ (s.perform mv).1.patience = s.patience ∧
      (mv ≠ .push → (s.perform mv).1.queue <:+ s.queue) := by
  cases mv with
  | read what =>
    simp only [perform, read]
    split
    · obtain ⟨hc, hp, hq⟩ := ask_same s _ what
      exact ⟨hc, hp, fun _ => hq⟩
    · exact ⟨rfl, rfl, fun _ => List.suffix_refl _⟩
  | push =>
    simp only [perform, push]
    repeat' split
    all_goals exact ⟨rfl, rfl, fun h => absurd rfl h⟩
  | dropResults n => exact ⟨rfl, rfl, fun _ => List.suffix_refl _⟩
  | listen l => exact ⟨rfl, rfl, fun _ => List.suffix_refl _⟩
  | _ =>
    simp only [perform, submit, take, examine, share, discard, stall, settle, fail, publish, close,
      drop, takeResults, copyResults, claimReader]
    repeat' split
    all_goals exact ⟨rfl, rfl, fun _ => List.suffix_refl _⟩

/-- An item is queued only where the queue has a place for it. -/
theorem length_queue_perform (h : s.queue.length ≤ s.capacity) (mv : Move) :
    (s.perform mv).1.queue.length ≤ (s.perform mv).1.capacity := by
  obtain ⟨hc, -, hq⟩ := queue_perform s mv
  rw [hc]
  by_cases hm : mv = .push
  · subst hm
    simp only [perform, push]
    split
    · split
      · next hroom =>
        simp only [Bool.and_eq_true, decide_eq_true_eq] at hroom
        rw [List.length_append]
        exact hroom.2
      · exact h
    · exact h
  · exact (hq hm).length_le.trans h

/-- The places of the queue and the patience stay as they were configured. -/
theorem setup_run (k : StreamKind σ ι) (config : StreamConfig) (ms : List Move) :
    ((ofKind k config).run ms).1.capacity = config.queueCapacity.toNat ∧
      ((ofKind k config).run ms).1.patience = config.pollTimeout :=
  run_keeps (P := fun s => s.capacity = config.queueCapacity.toNat ∧
      s.patience = config.pollTimeout)
    (fun s mv ⟨hc, hp⟩ => ⟨(queue_perform s mv).1.trans hc, (queue_perform s mv).2.1.trans hp⟩)
    ⟨rfl, rfl⟩ ms

/-- The queue never holds more items than it has places. -/
theorem length_queue_le (k : StreamKind σ ι) (config : StreamConfig) (ms : List Move) :
    ((ofKind k config).run ms).1.queue.length ≤ config.queueCapacity.toNat := by
  rw [← (setup_run k config ms).1]
  exact run_keeps (P := fun s => s.queue.length ≤ s.capacity)
    (fun s mv h => length_queue_perform h mv) (Nat.zero_le _) ms

/-! ## Consumers that leave -/

/-- No consumer comes back. -/
theorem hasConsumer_run (ms : List Move) (h : (s.run ms).1.hasConsumer = true) :
    s.hasConsumer = true :=
  run_keeps (P := fun t => t.hasConsumer = true → s.hasConsumer = true)
    (fun t mv ht h => ht ((produces_perform t mv).consumer h)) id ms h

/-- Without a consumer nothing stalls. -/
theorem stall_of_noConsumer (h : s.hasConsumer = false) : s.stall = (s, []) := by
  unfold stall
  split
  · rw [h]
    rfl
  · rfl

/-! ## Moves while a reply is processed -/

/-- Whether a move is one of the call that processes a reply. -/
def Move.isProcessing : Move → Bool
  | examine | share | push | discard | stall | settle | publish | close => true
  | _ => false

/-- Whether the call is at the point where a move can do something. -/
def Move.isDue (s : Stream σ ι) : Move → Bool
  | examine => (s.delivery matches some (.received _))
  | share => (s.delivery matches some (.decoded _ _))
  | push | discard | stall => s.isQueueing
  | settle => (s.delivery matches some (.settling _ _))
  | publish => (s.completion matches some (.publishing _))
  | close => (s.completion matches some .closing)
  | _ => false

/-- At any other point the move does nothing. -/
theorem perform_of_not_due (hm : mv.isProcessing = true) (h : mv.isDue s = false) :
    s.perform mv = (s, []) := by
  cases mv with
  | examine | share | push | discard | stall | settle | publish | close =>
    simp only [Move.isDue, isQueueing] at h
    simp only [perform, examine, share, push, discard, stall, settle, publish, close]
    split <;> simp_all
  | _ => cases hm

/-- The call does nothing to the consumer. -/
theorem hasConsumer_processing (s : Stream σ ι) {ms : List Move}
    (hms : ∀ mv ∈ ms, mv.isProcessing = true) : (s.run ms).1.hasConsumer = s.hasConsumer := by
  induction ms generalizing s with
  | nil => rfl
  | cons mv ms ih =>
    have hnow : (s.perform mv).1.hasConsumer = s.hasConsumer := by
      have hm := hms mv List.mem_cons_self
      cases mv with
      | examine | share | push | discard | stall | settle | publish | close =>
        simp only [perform, examine, share, push, discard, stall, settle, publish, close]
        repeat' split
        all_goals rfl
      | _ => cases hm
    exact (ih _ fun mv' hm => hms mv' (List.mem_cons_of_mem _ hm)).trans hnow

/-- Whether a move is up to the consumer and is no reading. -/
def Move.isHandling : Move → Bool
  | takeResults | copyResults _ | dropResults _ | claim _ => true
  | read (.setTimeout _) | read .release => true
  | _ => false

/-- What events tell: the items that were queued, the answers to replies, and what becomes visible.
Nothing was reported by the reader. -/
structure Told (es : List (Event σ ι)) (xs : List ι) (answers : List Bool) (ns : List Notice) :
    Prop where
  queued : Event.queuedItems es = xs
  answers : Event.answers es = answers
  notices : Event.notices es = ns
  reports : Event.reports es = []

theorem Told.append {xs ys : List ι} {as bs : List Bool} {ns ns' : List Notice}
    (h : Told es xs as ns) (h' : Told fs ys bs ns') :
    Told (es ++ fs) (xs ++ ys) (as ++ bs) (ns ++ ns') where
  queued := by rw [Event.queuedItems_append, h.queued, h'.queued]
  answers := by rw [Event.answers_append, h.answers, h'.answers]
  notices := by rw [Event.notices, List.filterMap_append]; exact congrArg₂ _ h.notices h'.notices
  reports := by rw [Event.reports_append, h.reports, h'.reports, List.append_nil]

theorem Told.append_nothing {xs : List ι} {as : List Bool} {ns : List Notice}
    (h : Told es xs as ns) (h' : Told fs [] [] []) : Told (es ++ fs) xs as ns := by
  have happend := h.append h'
  rwa [List.append_nil, List.append_nil, List.append_nil] at happend

theorem Told.append_logged {xs : List ι} {as : List Bool} {ns : List Notice} (h : Told es xs as ns)
    (n : Notice) : Told (es ++ [.noticed n]) xs as (ns ++ [n]) := by
  have htold : Told ([.noticed n] : List (Event σ ι)) [] [] [n] := ⟨rfl, rfl, rfl, rfl⟩
  have happend := h.append htold
  rwa [List.append_nil, List.append_nil] at happend

theorem Told.noticed (ns : List Notice) :
    Told (ns.map .noticed : List (Event σ ι)) [] [] ns where
  queued := (Event.silent_noticed ns).queued
  answers := Event.answers_noticed ns
  notices := by simp [Event.notices, List.filterMap_map]
  reports := (Event.silent_noticed ns).reports

theorem Told.settled (ns : List Notice) (a : Accepted) :
    Told (ns.map .noticed ++ [.accepted a] : List (Event σ ι)) [] [a.isFinished] ns := by
  have htold : Told ([.accepted a] : List (Event σ ι)) [] [a.isFinished] [] :=
    ⟨rfl, rfl, rfl, rfl⟩
  have happend := (Told.noticed ns).append htold
  rwa [List.append_nil, List.nil_append, List.append_nil] at happend

/-- A consumer that does not read changes neither the calls nor the queue. -/
theorem handling_perform (hm : mv.isHandling = true) :
    s.SameCalls (s.perform mv).1 ∧ (s.perform mv).1.queue = s.queue ∧
      Told (s.perform mv).2 [] [] [] := by
  have hconsuming : mv.isConsuming = true := by
    cases mv <;> first | rfl | cases hm
  refine ⟨(sameCalls_perform hconsuming).1, ?_⟩
  cases mv with
  | read what =>
    simp only [perform, read]
    split
    · cases what with
      | setTimeout d => exact ⟨rfl, rfl, rfl, rfl, rfl⟩
      | release => exact ⟨rfl, rfl, rfl, rfl, rfl⟩
      | _ => cases hm
    · exact ⟨rfl, rfl, rfl, rfl, rfl⟩
  | dropResults n => exact ⟨rfl, rfl, rfl, rfl, rfl⟩
  | takeResults | copyResults n | claim n =>
    simp only [perform, takeResults, copyResults, claimReader]
    repeat' split
    all_goals exact ⟨rfl, rfl, rfl, rfl, rfl⟩
  | _ => cases hm

/-- Only to drop the operation is to drop it. -/
theorem dropped_perform (s : Stream σ ι) (hm : mv ≠ .drop) :
    (s.perform mv).1.dropped = s.dropped := by
  by_cases hconsuming : mv.isConsuming = true
  · exact (sameCalls_perform hconsuming).1.dropped
  cases mv with
  | drop => exact absurd rfl hm
  | submit | take | examine | share | push | discard | stall | settle | publish | close =>
    simp only [perform, submit, take, examine, share, push, discard, stall, settle, publish, close]
    repeat' split
    all_goals rfl
  | fail c =>
    simp only [perform, fail]
    repeat' split
    all_goals rfl
  | listen l => rfl
  | _ => exact absurd rfl hconsuming

/-! ## What a reply comes to -/

/-- How many items the queue takes while nobody reads. -/
def room (s : Stream σ ι) : Nat := if s.hasConsumer then s.capacity - s.queue.length else 0

/-- The items of a reply that the queue takes while nobody reads. -/
def fitting (s : Stream σ ι) (reply : σ.Reply) : List ι := (s.items reply).take s.room

/-- What the operation settles a reply with: the reply, or that there was no room for its items. -/
def verdict (s : Stream σ ι) (reply : σ.Reply) : Outcome σ.Reply :=
  if s.hasConsumer && decide (s.room < (s.items reply).length) then
    .error (.consumerStalled s.patience.milliseconds)
  else .ok reply

/-- What is logged of items that nobody will read. -/
def given (s : Stream σ ι) (reply : σ.Reply) : List Notice :=
  if s.hasConsumer || (s.items reply).isEmpty then [] else [.logged .consumerGone]

theorem room_of_consumer (h : s.hasConsumer = true) : s.room = s.capacity - s.queue.length :=
  if_pos h

theorem room_of_unread (h : s.hasConsumer = false) : s.room = 0 := if_neg (by simp [h])

theorem verdict_of_fits {reply : σ.Reply} (h : (s.items reply).length ≤ s.room) :
    s.verdict reply = .ok reply := if_neg (by simp [h])

theorem verdict_of_unread (h : s.hasConsumer = false) (reply : σ.Reply) :
    s.verdict reply = .ok reply := if_neg (by simp [h])

theorem verdict_of_overflow (hc : s.hasConsumer = true) {reply : σ.Reply}
    (h : s.room < (s.items reply).length) :
    s.verdict reply = .error (.consumerStalled s.patience.milliseconds) :=
  if_pos (by simp [hc, h])

theorem given_of_consumer (h : s.hasConsumer = true) (reply : σ.Reply) : s.given reply = [] :=
  if_pos (by simp [h])

/-- The streams are set up alike and both are there, and so is the consumer of both or none. -/
structure SameSetup (s t : Stream σ ι) : Prop where
  items : t.items = s.items
  capacity : t.capacity = s.capacity
  patience : t.patience = s.patience
  dropped : t.dropped = s.dropped
  consumer : t.hasConsumer = s.hasConsumer

/-- The first `n` items of a reply are queued, that found the stream as it is first. -/
structure Filling (s : Stream σ ι) (m : Message) (reply : σ.Reply) (n : Nat) (t : Stream σ ι)
    (es : List (Event σ ι)) : Prop where
  le_length : n ≤ (s.items reply).length
  le_room : n ≤ s.room
  delivery : t.delivery = some (.ofRest m.code reply ((s.items reply).drop n))
  operation : t.operation = s.operation
  completion : t.completion = none
  closed : t.closed = false
  queue : t.queue = s.queue ++ (s.items reply).take n
  told : Told es ((s.items reply).take n) [] []

/-- A reply is being processed that found the stream as it is first, and nobody reads. The events
are those since. -/
inductive Processing (s : Stream σ ι) (m : Message) (reply : σ.Reply) (t : Stream σ ι)
    (es : List (Event σ ι)) : Prop where
  | received (hd : t.delivery = some (.received m)) (ho : t.operation = s.operation)
      (hc : t.completion = none) (hcl : t.closed = false) (hq : t.queue = s.queue)
      (hes : Told es [] [] [])
  | decoded (hd : t.delivery = some (.decoded m.code reply)) (ho : t.operation = s.operation)
      (hc : t.completion = none) (hcl : t.closed = false) (hq : t.queue = s.queue)
      (hes : Told es [] [] [])
  | queueing {n : Nat} (hn : n < (s.items reply).length) (hf : Filling s m reply n t es)
  | settling (hd : t.delivery = some (.settling m.code (s.verdict reply)))
      (ho : t.operation = s.operation) (hc : t.completion = none) (hcl : t.closed = false)
      (hq : t.queue = s.queue ++ s.fitting reply)
      (hes : Told es (s.fitting reply) [] (s.given reply))
  | publishing {op : Operation σ} {a : Accepted} {o : Outcome σ.Output} {ns : List Notice}
      (hj : s.operation.judge m.code (s.verdict reply) = (op, a, some o, ns))
      (hd : t.delivery = none) (ho : t.operation = op) (hc : t.completion = some (.publishing o))
      (hcl : t.closed = false) (hq : t.queue = s.queue ++ s.fitting reply)
      (hes : Told es (s.fitting reply) [a.isFinished] (s.given reply ++ ns))
  | closing (hdone : t.operation.isDone = true) (hd : t.delivery = none)
      (ho : t.operation = (s.operation.settle m.code (s.verdict reply)).1)
      (hc : t.completion = some .closing) (hq : t.queue = s.queue ++ s.fitting reply)
      (hes : Told es (s.fitting reply)
        [(s.operation.settle m.code (s.verdict reply)).2.1.isFinished]
        (s.given reply ++ (s.operation.settle m.code (s.verdict reply)).2.2))
  | returned (hd : t.delivery = none)
      (ho : t.operation = (s.operation.settle m.code (s.verdict reply)).1)
      (hc : t.completion = none) (hcl : t.closed = t.operation.isDone)
      (hq : t.queue = s.queue ++ s.fitting reply)
      (hes : Told es (s.fitting reply)
        [(s.operation.settle m.code (s.verdict reply)).2.1.isFinished]
        (s.given reply ++ (s.operation.settle m.code (s.verdict reply)).2.2))

namespace Filling

variable {m : Message} {reply : σ.Reply} {n : Nat}

theorem queueing (h : Filling s m reply n t es) (hn : n < (s.items reply).length) :
    t.delivery =
      some (.queueing m.code reply ((s.items reply)[n] :: (s.items reply).drop (n + 1))) := by
  rw [h.delivery, List.drop_eq_getElem_cons hn]
  rfl

theorem length_queue (h : Filling s m reply n t es) : t.queue.length = s.queue.length + n := by
  rw [h.queue, List.length_append, List.length_take_of_le h.le_length]

end Filling

namespace Processing

variable {m : Message} {reply : σ.Reply} {n : Nat}

/-- Neither the calls nor the queue change. -/
theorem of_same (h : Processing s m reply t es) (hs : t.SameCalls t') (hqueue : t'.queue = t.queue)
    (htold : Told fs [] [] []) : Processing s m reply t' (es ++ fs) := by
  obtain ⟨ho', -, -, hd', hc', hcl', -⟩ := hs
  cases h with
  | received hd ho hc hcl hq hes =>
    exact .received (hd'.trans hd) (ho'.trans ho) (hc'.trans hc) (hcl'.trans hcl)
      (hqueue.trans hq) (hes.append_nothing htold)
  | decoded hd ho hc hcl hq hes =>
    exact .decoded (hd'.trans hd) (ho'.trans ho) (hc'.trans hc) (hcl'.trans hcl)
      (hqueue.trans hq) (hes.append_nothing htold)
  | queueing hn hf =>
    exact .queueing hn ⟨hf.le_length, hf.le_room, hd'.trans hf.delivery, ho'.trans hf.operation,
      hc'.trans hf.completion, hcl'.trans hf.closed, hqueue.trans hf.queue,
      hf.told.append_nothing htold⟩
  | settling hd ho hc hcl hq hes =>
    exact .settling (hd'.trans hd) (ho'.trans ho) (hc'.trans hc) (hcl'.trans hcl)
      (hqueue.trans hq) (hes.append_nothing htold)
  | publishing hj hd ho hc hcl hq hes =>
    exact .publishing hj (hd'.trans hd) (ho'.trans ho) (hc'.trans hc) (hcl'.trans hcl)
      (hqueue.trans hq) (hes.append_nothing htold)
  | closing hdone hd ho hc hq hes =>
    exact .closing (ho' ▸ hdone) (hd'.trans hd) (ho'.trans ho) (hc'.trans hc) (hqueue.trans hq)
      (hes.append_nothing htold)
  | returned hd ho hc hcl hq hes =>
    exact .returned (hd'.trans hd) (ho'.trans ho) (hc'.trans hc) (ho' ▸ hcl'.trans hcl)
      (hqueue.trans hq) (hes.append_nothing htold)

/-- With its last item the reply comes to be settled. -/
theorem of_filling (h : Filling s m reply n t es) : Processing s m reply t es := by
  rcases Nat.lt_or_eq_of_le h.le_length with hlt | rfl
  · exact .queueing hlt h
  · obtain ⟨-, hroom, hd, ho, hc, hcl, hq, hes⟩ := h
    have hfitting : s.fitting reply = (s.items reply).take (s.items reply).length := by
      rw [fitting, List.take_of_length_le hroom, List.take_length]
    have hgiven : s.given reply = [] := by
      cases hcons : s.hasConsumer with
      | true => exact given_of_consumer hcons reply
      | false =>
        rw [room_of_unread hcons, Nat.le_zero, List.length_eq_zero_iff] at hroom
        simp [given, hroom]
    rw [List.drop_length] at hd
    rw [← hfitting] at hq hes
    exact .settling ((verdict_of_fits hroom).symm ▸ hd) ho hc hcl hq (hgiven ▸ hes)

/-- An item is queued. -/
theorem push (hs : s.SameSetup t) (hn : n < (s.items reply).length)
    (h : Filling s m reply n t es) : Processing s m reply t.push.1 (es ++ t.push.2) := by
  unfold Stream.push
  rw [h.queueing hn]
  dsimp only
  split
  · next hfree =>
    have hlast := List.take_concat_get' (s.items reply) n hn
    have hroom : n + 1 ≤ s.room := by
      simp only [Bool.and_eq_true, decide_eq_true_eq, hs.consumer, hs.capacity,
        h.length_queue] at hfree
      rw [room_of_consumer hfree.1]
      omega
    have htold (i : ι) : Told ([.queued i] : List (Event σ ι)) [i] [] [] := ⟨rfl, rfl, rfl, rfl⟩
    refine .of_filling ⟨hn, hroom, rfl, h.operation, h.completion, h.closed, ?_, ?_⟩
    · rw [← hlast, ← List.append_assoc, ← h.queue]
    · rw [← hlast]
      exact h.told.append (htold _)
  · rw [List.append_nil]
    exact .queueing hn h

/-- Items are given up where nobody will read them. -/
theorem discard (hs : s.SameSetup t) (hn : n < (s.items reply).length)
    (h : Filling s m reply n t es) : Processing s m reply t.discard.1 (es ++ t.discard.2) := by
  unfold Stream.discard
  rw [h.queueing hn]
  dsimp only
  rw [if_neg (Bool.eq_false_iff.1 h.closed)]
  split
  · next hleft =>
    simp only [hs.consumer, Bool.not_eq_true'] at hleft
    have hnone := room_of_unread hleft
    obtain rfl : n = 0 := Nat.le_zero.1 (hnone ▸ h.le_room)
    have hfitting : s.fitting reply = (s.items reply).take 0 := by rw [fitting, hnone]
    have hverdict := verdict_of_unread hleft reply
    have hgiven : s.given reply = [.logged .consumerGone] := by
      rw [given, if_neg]
      simp [hleft, List.ne_nil_of_length_pos hn]
    refine .settling (by rw [hverdict]) h.operation h.completion h.closed ?_ ?_
    · rw [hfitting]
      exact h.queue
    · rw [hfitting, hgiven]
      exact h.told.append_logged _
  · rw [List.append_nil]
    exact .queueing hn h

/-- No room came for the items that are left. -/
theorem stall (hs : s.SameSetup t) (hn : n < (s.items reply).length)
    (h : Filling s m reply n t es) : Processing s m reply t.stall.1 (es ++ t.stall.2) := by
  unfold Stream.stall
  rw [h.queueing hn]
  dsimp only
  split
  · next hfull =>
    simp only [Bool.and_eq_true, decide_eq_true_eq, hs.consumer, hs.capacity,
      h.length_queue] at hfull
    have hall : s.room = n := by
      have hroom := h.le_room
      rw [room_of_consumer hfull.1] at hroom ⊢
      omega
    have hfitting : s.fitting reply = (s.items reply).take n := by rw [fitting, hall]
    have hverdict : s.verdict reply = .error (.consumerStalled t.patience.milliseconds) := by
      rw [verdict_of_overflow hfull.1 (hall ▸ hn), hs.patience]
    have hgiven := given_of_consumer hfull.1 reply
    rw [List.append_nil]
    refine .settling (by rw [hverdict]) h.operation h.completion h.closed ?_ ?_
    · rw [hfitting]
      exact h.queue
    · rw [hfitting, hgiven]
      exact h.told
  · rw [List.append_nil]
    exact .queueing hn h

/-- The reply is settled. -/
theorem settle (hp : s.operation.isDone = false)
    (hd : t.delivery = some (.settling m.code (s.verdict reply)))
    (ho : t.operation = s.operation) (hc : t.completion = none) (hcl : t.closed = false)
    (hq : t.queue = s.queue ++ s.fitting reply)
    (hes : Told es (s.fitting reply) [] (s.given reply)) :
    Processing s m reply t.settle.1 (es ++ t.settle.2) := by
  obtain ⟨⟨op, a, o, ns⟩, hj⟩ : ∃ r, s.operation.judge m.code (s.verdict reply) = r := ⟨_, rfl⟩
  have hdone := Operation.isDone_of_judge hp hj
  have htold : Told (es ++ (ns.map .noticed ++ [.accepted a])) (s.fitting reply) [a.isFinished]
      (s.given reply ++ ns) := by
    simpa using hes.append (Told.settled ns a)
  rw [settle_of_judge hd hc (ho ▸ hj)]
  cases o with
  | some o => exact .publishing hj rfl rfl rfl hcl hq htold
  | none =>
    have hsettle : s.operation.settle m.code (s.verdict reply) = (op, a, ns) := by
      rw [Operation.settle, hj]
    refine .returned rfl (by rw [hsettle]) rfl (hcl.trans hdone.symm) hq ?_
    rw [hsettle]
    exact htold

/-- The handle is completed. -/
theorem publish {op : Operation σ} {a : Accepted} {o : Outcome σ.Output} {ns : List Notice}
    (hp : s.operation.isDone = false)
    (hj : s.operation.judge m.code (s.verdict reply) = (op, a, some o, ns))
    (hd : t.delivery = none) (ho : t.operation = op) (hc : t.completion = some (.publishing o))
    (hq : t.queue = s.queue ++ s.fitting reply)
    (hes : Told es (s.fitting reply) [a.isFinished] (s.given reply ++ ns)) :
    Processing s m reply t.publish.1 (es ++ t.publish.2) := by
  have hsettle : s.operation.settle m.code (s.verdict reply) =
      ((op.publish o).1, a, ns ++ (op.publish o).2) := by
    rw [Operation.settle, hj]
  have hdone : (op.publish o).1.isDone = true := by
    rw [Operation.isDone, Operation.phase_publish]
    exact Operation.isDone_of_judge hp hj
  unfold Stream.publish
  rw [hc]
  dsimp only
  rw [ho]
  refine .closing hdone hd (by rw [hsettle]) rfl hq ?_
  rw [hsettle, ← List.append_assoc]
  have happend := hes.append (Told.noticed (op.publish o).2)
  rwa [List.append_nil, List.append_nil] at happend

/-- A move of the call goes on with the reply. -/
theorem process (h : Processing s m reply t es) (hs : s.SameSetup t)
    (hp : s.operation.isDone = false) (hx : s.operation.examine m = .ok reply)
    (hm : mv.isProcessing = true) :
    Processing s m reply (t.perform mv).1 (es ++ (t.perform mv).2) := by
  have hstays (hdue : mv.isDue t = false) :
      Processing s m reply (t.perform mv).1 (es ++ (t.perform mv).2) := by
    rw [perform_of_not_due hm hdue, List.append_nil]
    exact h
  cases h with
  | received hd ho hc hcl hq hes =>
    cases mv with
    | examine =>
      have hx' : t.operation.examine m = .ok reply := ho ▸ hx
      simp only [perform, examine, hd, hx']
      exact .decoded rfl ho hc hcl hq (hes.append_nothing ⟨rfl, rfl, rfl, rfl⟩)
    | _ => exact hstays (by simp [Move.isDue, isQueueing, hd, hc])
  | decoded hd ho hc hcl hq hes =>
    cases mv with
    | share =>
      simp only [perform, share, hd]
      rw [if_neg (Bool.eq_false_iff.1 hcl), hs.items, List.append_nil]
      exact .of_filling (n := 0) ⟨Nat.zero_le _, Nat.zero_le _, rfl, ho, hc, hcl,
        hq.trans (List.append_nil _).symm, hes⟩
    | _ => exact hstays (by simp [Move.isDue, isQueueing, hd, hc])
  | queueing hn hf =>
    cases mv with
    | push => exact .push hs hn hf
    | discard => exact .discard hs hn hf
    | stall => exact .stall hs hn hf
    | _ => exact hstays (by simp [Move.isDue, hf.queueing hn, hf.completion])
  | settling hd ho hc hcl hq hes =>
    cases mv with
    | settle => exact .settle hp hd ho hc hcl hq hes
    | _ => exact hstays (by simp [Move.isDue, isQueueing, hd, hc])
  | publishing hj hd ho hc hcl hq hes =>
    cases mv with
    | publish => exact .publish hp hj hd ho hc hq hes
    | _ => exact hstays (by simp [Move.isDue, isQueueing, hd, hc])
  | closing hdone hd ho hc hq hes =>
    cases mv with
    | close =>
      simp only [perform, close, hc]
      rw [List.append_nil]
      exact .returned hd ho rfl hdone.symm hq hes
    | _ => exact hstays (by simp [Move.isDue, isQueueing, hd, hc])
  | returned hd ho hc hcl hq hes =>
    refine hstays ?_
    cases mv <;> simp [Move.isDue, isQueueing, hd, hc]

/-- So it does with any moves of the call and of a consumer that stays and does not read. -/
theorem run (h : Processing s m reply t es) (hs : s.SameSetup t)
    (hp : s.operation.isDone = false) (hx : s.operation.examine m = .ok reply) {ms : List Move}
    (hms : ∀ mv ∈ ms, mv.isProcessing = true ∨ mv.isHandling = true)
    (hstays : (t.run ms).1.hasConsumer = s.hasConsumer) :
    Processing s m reply (t.run ms).1 (es ++ (t.run ms).2) ∧ s.SameSetup (t.run ms).1 := by
  induction ms generalizing t es with
  | nil =>
    rw [Stream.run, List.append_nil]
    exact ⟨h, hs⟩
  | cons mv ms ih =>
    have hs' : s.SameSetup (t.perform mv).1 := by
      obtain ⟨hcapacity, hpatience, -⟩ := queue_perform t mv
      have hdropped : (t.perform mv).1.dropped = t.dropped := by
        refine dropped_perform t ?_
        rintro rfl
        rcases hms .drop List.mem_cons_self with hm | hm <;> cases hm
      refine ⟨(produces_perform t mv).items_eq.trans hs.items, hcapacity.trans hs.capacity,
        hpatience.trans hs.patience, hdropped.trans hs.dropped, ?_⟩
      -- a consumer that was lost on the way would not be there at the end
      cases hc : s.hasConsumer with
      | true => exact hasConsumer_run ms (hstays.trans hc)
      | false =>
        refine Bool.eq_false_iff.2 fun hc' => ?_
        have hbefore := hs.consumer ▸ (produces_perform t mv).consumer hc'
        exact absurd (hc.symm.trans hbefore) Bool.false_ne_true
    have h' : Processing s m reply (t.perform mv).1 (es ++ (t.perform mv).2) := by
      rcases hms mv List.mem_cons_self with hm | hm
      · exact h.process hs hp hx hm
      · obtain ⟨hsame, hqueue, htold⟩ := handling_perform (s := t) hm
        exact h.of_same hsame hqueue htold
    have hlater := ih h' hs' (fun mv' hm => hms mv' (List.mem_cons_of_mem _ hm)) hstays
    rwa [List.append_assoc] at hlater

end Processing

end StoreClient.Stream
