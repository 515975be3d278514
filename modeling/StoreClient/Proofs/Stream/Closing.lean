import StoreClient.Proofs.Stream.Completeness
import StoreClient.Proofs.Stream.Milestones

/-!
# The end of the queue tells the end of the operation

While no call of an operation goes on, its queue has a producing end exactly if the operation is
there and not done (`Orderly.hasProducer_eq`). So a reader that looks for the next item is told what
the state of the operation and its own past reports call for (`answer_hasNext`): to wait while the
operation goes on, and how the stream ended afterwards.

What a reader may take is what it was last told (`Event.isReady`).
-/

namespace StoreClient.Stream

variable {σ : Signature} {ι : Type} {s s' : Stream σ ι} {es fs : List (Event σ ι)} {r : Reader ι}

/-! ## The queue -/

/-- No call of the operation goes on. -/
structure AtRest (s : Stream σ ι) : Prop where
  delivery : s.delivery = none
  completion : s.completion = none

/-- Moves of the consumer start no call. -/
theorem AtRest.perform {m : Move} (h : s.AtRest) (hm : m.isConsuming = true) :
    (s.perform m).1.AtRest where
  delivery := (sameCalls_perform hm).1.delivery.trans h.delivery
  completion := (sameCalls_perform hm).1.completion.trans h.completion

/-- Unless the call that made it done goes on, an operation is done exactly if its queue is
closed. -/
theorem Orderly.closed_eq_isDone (h : s.Orderly) (hc : s.completion = none) :
    s.closed = s.operation.isDone := by
  cases hp : s.operation.isDone with
  | false => exact (h.standing.of_pending hp).2.2
  | true => exact h.standing.closed_of_no_completion hp hc

/-- The queue has a producing end exactly if the operation is there and not done. -/
theorem Orderly.hasProducer_eq (h : s.Orderly) (hrest : s.AtRest) :
    s.hasProducer = (!s.operation.isDone && !s.dropped) := by
  rw [hasProducer, isQueueing, hrest.delivery, h.closed_eq_isDone hrest.completion, Bool.or_false]

/-! ## Failures that were reported -/

def Report.isFailure : Report ι → Bool
  | failure _ => true
  | _ => false

/-- How many failures the reader reported. -/
def Event.failures (events : List (Event σ ι)) : Nat :=
  (Event.reports events).countP Report.isFailure

theorem countP_isFailure_items (items : List ι) :
    (items.map Report.item).countP Report.isFailure = 0 := by
  induction items with
  | nil => rfl
  | cons i items ih => exact ih

theorem countP_isFailure_ending (c : Option Cause) (n : Nat) :
    (ending c n : List (Report ι)).countP Report.isFailure = c.isSome.toNat := by
  cases c <;> simp [ending, List.countP_cons, List.countP_replicate, Report.isFailure]

/-- A failure is reported once, at the end of a stream that has one. -/
theorem Tells.failures_eq (h : s.Tells es) :
    Event.failures es = 0 ∧ (∀ r, s.claim = .reading r → r.failureReported = false) ∨
      Event.failures es = s.endCause?.isSome.toNat ∧
        ∀ r, s.claim = .reading r → r.failureReported = s.endCause?.isSome := by
  unfold Event.failures
  cases h with
  | items hr hf =>
    rw [hr, countP_isFailure_items]
    exact .inl ⟨rfl, hf⟩
  | ending n ho hr =>
    rw [hr, List.countP_append, countP_isFailure_items, countP_isFailure_ending, Nat.zero_add]
    exact .inr ⟨rfl, ho.reported⟩

/-- At most one failure is reported. -/
theorem Tells.failures_le (h : s.Tells es) : Event.failures es ≤ 1 := by
  rcases h.failures_eq with ⟨hf, -⟩ | ⟨hf, -⟩ <;> rw [hf]
  · exact Nat.zero_le 1
  · exact Bool.toNat_le _

/-- The reader knows whether it has reported a failure. -/
theorem Tells.failureReported_eq (h : s.Tells es) (hc : s.claim = .reading r) :
    Event.failures es = r.failureReported.toNat := by
  rcases h.failures_eq with ⟨hf, hr⟩ | ⟨hf, hr⟩ <;> rw [hf, hr r hc]
  rfl

/-! ## What a reader is told -/

/-- What a reader has to be told that looks for the next item while no call of the operation goes on,
from the state of the operation and what was seen of the stream. -/
def dueAnswer (s : Stream σ ι) (es : List (Event σ ι)) (r : Reader ι) : Except StreamError Bool :=
  if s.peeked ++ s.queue ≠ [] then .ok true
  else if s.operation.isDone = false ∧ s.dropped = false then
    .error (.pollTimeout r.timeout.milliseconds)
  else if 0 < Event.failures es then .ok false
  else match s.operation.handle.outcome with
    | some (.ok _) => .ok false
    | some (.error c) => .error (.failed c)
    | none => .error (.failed (.transport "operation dropped before completion"))

/-- What a reader may have to be told, and when. -/
theorem dueAnswer_cases (s : Stream σ ι) (es : List (Event σ ι)) (r : Reader ι) :
    (s.peeked ++ s.queue ≠ [] ∧ s.dueAnswer es r = .ok true) ∨
    (s.peeked ++ s.queue = [] ∧ s.operation.isDone = false ∧ s.dropped = false ∧
      s.dueAnswer es r = .error (.pollTimeout r.timeout.milliseconds)) ∨
    (s.operation.isDone = true ∨ s.dropped = true) ∧
      (s.dueAnswer es r = .ok false ∨ ∃ c, s.dueAnswer es r = .error (.failed c)) := by
  unfold dueAnswer
  by_cases hitems : s.peeked ++ s.queue ≠ []
  · exact .inl ⟨hitems, if_pos hitems⟩
  rw [if_neg hitems]
  by_cases hopen : s.operation.isDone = false ∧ s.dropped = false
  · exact .inr (.inl ⟨not_not.1 hitems, hopen.1, hopen.2, if_pos hopen⟩)
  rw [if_neg hopen]
  refine .inr (.inr ⟨?_, ?_⟩)
  · cases hp : s.operation.isDone with
    | true => exact .inl rfl
    | false => exact .inr (by simpa [hp] using hopen)
  · split
    · exact .inl rfl
    · split
      · exact .inl rfl
      · exact .inr ⟨_, rfl⟩
      · exact .inr ⟨_, rfl⟩

/-- Only while the operation goes on is a reader told to wait. -/
theorem goes_on_of_pollTimeout {ms : UInt64} (h : s.dueAnswer es r = .error (.pollTimeout ms)) :
    s.operation.isDone = false ∧ s.dropped = false ∧ s.peeked ++ s.queue = [] := by
  rcases s.dueAnswer_cases es r with ⟨-, hs⟩ | ⟨hitems, hp, hl, -⟩ | ⟨-, hs | ⟨c, hs⟩⟩
  · cases hs.symm.trans h
  · exact ⟨hp, hl, hitems⟩
  · cases hs.symm.trans h
  · cases hs.symm.trans h

/-- While the operation goes on, no reader is told that the stream has ended. -/
theorem done_of_ended (h : s.dueAnswer es r = .ok false) :
    s.operation.isDone = true ∨ s.dropped = true := by
  rcases s.dueAnswer_cases es r with ⟨-, hs⟩ | ⟨-, -, -, hs⟩ | ⟨hend, -⟩
  · cases hs.symm.trans h
  · cases hs.symm.trans h
  · exact hend

/-- A reader that has nothing left to take and finds the queue without a producing end is told how
the stream ended. -/
theorem endOfStream_answer (h : s.Tells es) (hc : s.claim = .reading r) :
    (s.endOfStream r).2 = if 0 < Event.failures es then .ok false
      else match s.operation.handle.outcome with
        | some (.ok _) => .ok false
        | some (.error c) => .error (.failed c)
        | none => .error (.failed (.transport "operation dropped before completion")) := by
  rw [h.failureReported_eq hc, endOfStream]
  cases r.failureReported with
  | true => rfl
  | false =>
    rw [if_neg Bool.false_ne_true, if_neg (show ¬ 0 < false.toNat by decide), endCause?,
      Handle.isDone, Handle.cause?]
    cases s.operation.handle.outcome with
    | none => rfl
    | some o => cases o <;> rfl

/-- **The answer to a reader that looks for the next item.** -/
theorem answer_hasNext (h : s.Sound es) (hrest : s.AtRest) (hc : s.claim = .reading r) :
    (s.perform (.read .hasNext)).2 = [.ready (s.dueAnswer es r)] := by
  have hread : (s.perform (.read .hasNext)).2 = [.ready (s.hasNext r).2.2] := by
    simp only [perform, read, hc, ask]
  have hproducer : (s.operation.isDone = false ∧ s.dropped = false) = (s.hasProducer = true) := by
    rw [h.orderly.hasProducer_eq hrest]
    simp
  rw [hread, dueAnswer, Conveys.peeked_reading hc, ← endOfStream_answer h.tells hc]
  simp only [hproducer]
  cases hp : r.peeked with
  | some i => simp [hasNext, hp]
  | none =>
    cases hq : s.queue with
    | cons i rest => simp [hasNext, hp, hq]
    | nil =>
      by_cases hs : s.hasProducer = true
      · simp [hasNext, hp, hq, hs]
      · simp [hasNext, hp, hq, hs]

/-! ## Looking again -/

/-- To look for the next item takes none, and finds the operation where it was. -/
theorem perform_hasNext (hc : s.claim = .reading r) :
    (s.perform (.read .hasNext)).1.peeked ++ (s.perform (.read .hasNext)).1.queue =
        s.peeked ++ s.queue ∧
      (∃ r', (s.perform (.read .hasNext)).1.claim = .reading r') ∧
      (s.peeked ++ s.queue ≠ [] → (s.perform (.read .hasNext)).2 = [.ready (.ok true)]) := by
  have hlooks := looks_hasNext s r
  have hread : s.perform (.read .hasNext) =
      ({ (s.hasNext r).1 with claim := .reading (s.hasNext r).2.1 },
        [.ready (s.hasNext r).2.2]) := by
    simp only [perform, read, hc, ask]
  rw [hread, Conveys.peeked_reading hc]
  generalize s.hasNext r = x at hlooks ⊢
  cases hlooks with
  | peeked hp => exact ⟨rfl, ⟨_, rfl⟩, fun _ => rfl⟩
  | fetch hp hq => exact ⟨by simp [peeked, hp, hq], ⟨_, rfl⟩, fun _ => rfl⟩
  | wait hp hq => exact ⟨rfl, ⟨_, rfl⟩, fun hne => absurd (by simp [hp, hq]) hne⟩
  | fail hp hq => exact ⟨rfl, ⟨_, rfl⟩, fun hne => absurd (by simp [hp, hq]) hne⟩
  | finish hp hq => exact ⟨rfl, ⟨_, rfl⟩, fun hne => absurd (by simp [hp, hq]) hne⟩

/-- However often a reader looks for the next item, none is taken, and if there is one, it is found
each time. -/
theorem run_hasNext (hc : s.claim = .reading r) (n : Nat) :
    (s.run (List.replicate n (.read .hasNext))).1.peeked ++
        (s.run (List.replicate n (.read .hasNext))).1.queue = s.peeked ++ s.queue ∧
      (s.peeked ++ s.queue ≠ [] →
        (s.run (List.replicate n (.read .hasNext))).2 = List.replicate n (.ready (.ok true))) := by
  induction n generalizing s r with
  | zero => exact ⟨rfl, fun _ => rfl⟩
  | succ n ih =>
    obtain ⟨hitems, ⟨r', hc'⟩, hfound⟩ := perform_hasNext hc
    obtain ⟨hlater, hagain⟩ := ih hc'
    rw [List.replicate_succ, run_cons]
    refine ⟨hlater.trans hitems, fun hne => ?_⟩
    rw [hfound hne, hagain (by rwa [hitems])]
    rfl

/-! ## Taking what was found -/

namespace Event

/-- Whether an item was found, or taken. -/
def found? : Event σ ι → Option Bool
  | ready (.ok true) => some true
  | ready _ => some false
  | item (.ok _) => some false
  | next (some (.ok _)) => some false
  | _ => none

/-- The last time that the reader looked for the next item it found one, and it was not taken since.
-/
def isReady (events : List (Event σ ι)) : Bool := (events.filterMap found?).getLast?.getD false

theorem isReady_append_of_none (hes : ∀ e ∈ fs, e.found? = none) :
    isReady (es ++ fs) = isReady es := by
  rw [isReady, List.filterMap_append, List.filterMap_eq_nil_iff.2 hes, List.append_nil, isReady]

theorem isReady_append_singleton {e : Event σ ι} {b : Bool} (he : e.found? = some b) :
    isReady (es ++ [e]) = b := by
  rw [isReady, List.filterMap_append]
  simp [he]

end Event

/-- The reader has an item ready if what was seen says so. -/
structure Peeks (s : Stream σ ι) (es : List (Event σ ι)) : Prop where
  unclaimed : s.claim = .unclaimed → Event.isReady es = false
  reading : ∀ r, s.claim = .reading r → r.peeked.isSome = Event.isReady es

namespace Peeks

/-- Moves of others show nothing of what the reader has ready. -/
theorem still (h : s.Peeks es) (hc : s'.claim = s.claim) (hes : ∀ e ∈ fs, e.found? = none) :
    s'.Peeks (es ++ fs) := by
  have hready : Event.isReady (es ++ fs) = Event.isReady es := Event.isReady_append_of_none hes
  exact ⟨fun hu => hready ▸ h.unclaimed (hc ▸ hu), fun r hr => hready ▸ h.reading r (hc ▸ hr)⟩

theorem reads (h : s.Peeks es) (hc : s.claim = .reading r) {e : Event σ ι} {r' : Reader ι}
    (hc' : s'.claim = .reading r')
    (he : e.found? = some r'.peeked.isSome ∨ e.found? = none ∧ r'.peeked = r.peeked) :
    s'.Peeks (es ++ [e]) := by
  refine ⟨fun hu => ?_, fun r₁ hr₁ => ?_⟩
  · rw [hc'] at hu
    cases hu
  · rw [hc'] at hr₁
    cases hr₁
    rcases he with he | ⟨he, hp⟩
    · rw [Event.isReady_append_singleton he]
    · rw [Event.isReady_append_of_none (by simpa using he), hp]
      exact h.reading r hc

theorem ask (h : s.Peeks es) (hc : s.claim = .reading r) (what : Reading) :
    (s.ask r what).1.Peeks (es ++ (s.ask r what).2) := by
  have hlooks := looks_hasNext s r
  cases what with
  | hasNext =>
    unfold Stream.ask
    dsimp only
    generalize s.hasNext r = x at hlooks ⊢
    cases hlooks with
    | peeked hp => exact h.reads hc rfl (.inl (by simp [Event.found?, hp]))
    | fetch hp hq => exact h.reads hc rfl (.inl rfl)
    | wait hp hq hs => exact h.reads hc rfl (.inl (by simp [Event.found?, hp]))
    | fail hp hq hs hf hcause => exact h.reads hc rfl (.inl (by simp [Event.found?, hp]))
    | finish hp hq hs hf => exact h.reads hc rfl (.inl (by simp [Event.found?, hp]))
  | nextItem =>
    unfold Stream.ask nextItem
    dsimp only
    split
    · next i hp => exact h.reads hc rfl (.inl rfl)
    · next hp => exact h.reads hc rfl (.inr ⟨rfl, rfl⟩)
  | next =>
    unfold Stream.ask Stream.next
    dsimp only
    generalize s.hasNext r = x at hlooks ⊢
    cases hlooks with
    | peeked hp =>
      simp only [Stream.nextItem, hp]
      exact h.reads hc rfl (.inl rfl)
    | fetch hp hq => exact h.reads hc rfl (.inl rfl)
    | wait hp hq hs => exact h.reads hc rfl (.inr ⟨rfl, rfl⟩)
    | fail hp hq hs hf hcause => exact h.reads hc rfl (.inr ⟨rfl, rfl⟩)
    | finish hp hq hs hf => exact h.reads hc rfl (.inr ⟨rfl, rfl⟩)
  | setTimeout d => exact h.reads hc rfl (.inr ⟨rfl, rfl⟩)
  | release =>
    refine ⟨fun hu => ?_, fun r₁ hr₁ => ?_⟩
    · cases hu
    · cases hr₁

theorem ofKind (k : StreamKind σ ι) (config : StreamConfig) :
    (ofKind k config).Peeks ([] : List (Event σ ι)) :=
  ⟨fun _ => rfl, nofun⟩

theorem perform (h : s.Peeks es) (m : Move) :
    (s.perform m).1.Peeks (es ++ (s.perform m).2) := by
  cases m with
  | read what =>
    simp only [Stream.perform, read]
    split
    · next r hc => exact h.ask hc what
    · exact h.still rfl (List.forall_mem_nil _)
  | claim n =>
    simp only [Stream.perform, claimReader]
    split
    · split
      · next hu =>
        have hready : Event.isReady (es ++ [.claimed (.ok ())]) = false := by
          rw [Event.isReady_append_of_none (by simp [Event.found?]), h.unclaimed hu]
        refine ⟨fun hclaim => ?_, fun r hr => ?_⟩
        · cases hclaim
        · cases hr
          exact hready.symm
      · exact h.still rfl (by simp [Event.found?])
    · exact h.still rfl (List.forall_mem_nil _)
  | settle =>
    simp only [Stream.perform, settle]
    split
    · refine h.still rfl ?_
      rw [List.forall_mem_append]
      exact ⟨by simp [Event.found?], by simp [Event.found?]⟩
    · exact h.still rfl (List.forall_mem_nil _)
  | submit | take | examine | share | push | discard | stall | fail | publish | close | drop
  | listen | takeResults | copyResults | dropResults =>
    simp only [Stream.perform, submit, take, examine, share, push, discard, stall, fail, publish,
      close, drop, listen, takeResults, copyResults, dropResults]
    repeat' split
    all_goals exact h.still rfl (by simp [Event.found?])

end Peeks

/-- The reader hands out an item when it was found and not taken. -/
theorem answer_nextItem (h : s.Peeks es) (hc : s.claim = .reading r) :
    ∃ answer, (s.perform (.read .nextItem)).2 = [.item answer] ∧
      (answer.isOk = true ↔ Event.isReady es = true) ∧
      (answer.isOk = false → answer = .error .noItemReady) := by
  have hread : (s.perform (.read .nextItem)).2 = [.item (nextItem r).2] := by
    simp only [perform, read, hc, ask]
  refine ⟨_, hread, ?_⟩
  rw [← h.reading r hc, nextItem]
  cases r.peeked <;> simp [Except.isOk, Except.toBool]

/-! ## The end of the queue -/

/-- **The queue is closed exactly when the operation is done, and its reader is told so.** -/
theorem queue_closed_when_done (k : StreamKind σ ι) (config : StreamConfig) (moves : List Move) :
    let s := ((ofKind k config).run moves).1
    let es := ((ofKind k config).run moves).2
    -- no call of the operation goes on
    (s.AtRest →
      (s.hasProducer = true ↔ s.operation.isDone = false ∧ s.dropped = false) ∧
      s.closed = s.operation.isDone ∧
      ∀ r, s.claim = .reading r →
        (s.perform (.read .hasNext)).1.AtRest ∧
        (s.perform (.read .hasNext)).2 = [.ready (s.dueAnswer es r)] ∧
        (∀ ms, s.dueAnswer es r = .error (.pollTimeout ms) →
          s.operation.isDone = false ∧ s.dropped = false ∧ s.peeked ++ s.queue = []) ∧
        (s.dueAnswer es r = .ok false → s.operation.isDone = true ∨ s.dropped = true)) ∧
    -- a failure is told once at most
    Event.failures es ≤ 1 ∧
    ∀ r, s.claim = .reading r →
      -- looking for the next item takes none
      (∀ n, let t := s.run (List.replicate n (.read .hasNext))
        t.1.peeked ++ t.1.queue = s.peeked ++ s.queue ∧
          (s.peeked ++ s.queue ≠ [] → t.2 = List.replicate n (.ready (.ok true)))) ∧
      -- an item that was found is handed out
      ∃ answer, (s.perform (.read .nextItem)).2 = [.item answer] ∧
        (answer.isOk = true ↔ Event.isReady es = true) ∧
        (answer.isOk = false → answer = .error .noItemReady) := by
  intro s es
  have hsound : s.Sound es := (sound_ofKind k config).run moves
  have hpeeks : s.Peeks es :=
    run_records (P := Peeks) (fun _ _ m h => h.perform m) (.ofKind k config) moves
  refine ⟨fun hrest => ⟨?_, ?_, fun r hc => ?_⟩, hsound.tells.failures_le,
    fun r hc => ⟨run_hasNext hc, answer_nextItem hpeeks hc⟩⟩
  · rw [hsound.orderly.hasProducer_eq hrest]
    simp
  · exact hsound.orderly.closed_eq_isDone hrest.completion
  · exact ⟨hrest.perform rfl, answer_hasNext hsound hrest hc, fun ms => goes_on_of_pollTimeout,
      done_of_ended⟩

/-- A reply with the item 7 that others follow, and a last one with the item 9. -/
def twoReplies : List Move :=
  [.takeResults, .claim 0, .take ⟨2, [7]⟩, .examine, .share, .push, .settle, .take ⟨2, [9, 0]⟩,
    .examine, .share, .push, .settle, .publish, .close]

/-- The stream after the moves. -/
def octetsAfter (moves : List Move) : Stream ⟨Bytes, List Bytes, Unit⟩ UInt8 :=
  ((ofKind octets {}).run moves).1

/-- The reader waits after the first reply, finds an item after the second, and then the end. -/
theorem queue_closed_when_done_octets :
    (∃ ms, ((octetsAfter (twoReplies.take 7 ++ [.read .next])).perform (.read .hasNext)).2 =
      [.ready (.error (.pollTimeout ms))]) ∧
    ((octetsAfter (twoReplies ++ [.read .next])).perform (.read .hasNext)).2 =
      [.ready (.ok true)] ∧
    (∃ i, ((octetsAfter (twoReplies ++ [.read .next, .read .hasNext])).perform
      (.read .nextItem)).2 = [.item (.ok i)]) ∧
    (octetsAfter (twoReplies ++ [.read .next, .read .next])).closed = true ∧
    ((octetsAfter (twoReplies ++ [.read .next, .read .next])).perform (.read .hasNext)).2 =
      [.ready (.ok false)] := by
  obtain ⟨hwaits, -⟩ := queue_closed_when_done octets {} (twoReplies.take 7 ++ [.read .next])
  obtain ⟨hfinds, -⟩ := queue_closed_when_done octets {} (twoReplies ++ [.read .next])
  obtain ⟨-, -, htakes⟩ :=
    queue_closed_when_done octets {} (twoReplies ++ [.read .next, .read .hasNext])
  obtain ⟨hends, -⟩ := queue_closed_when_done octets {} (twoReplies ++ [.read .next, .read .next])
  refine ⟨?_, ?_, ?_, ?_, ?_⟩
  · obtain ⟨-, -, hreads⟩ := hwaits ⟨rfl, rfl⟩
    exact ⟨_, (hreads _ rfl).2.1⟩
  · obtain ⟨-, -, hreads⟩ := hfinds ⟨rfl, rfl⟩
    exact (hreads _ rfl).2.1
  · obtain ⟨-, answer, hitem, hready, -⟩ := htakes _ rfl
    cases answer with
    | ok i => exact ⟨i, hitem⟩
    | error e => exact absurd (hready.2 rfl) Bool.false_ne_true
  · exact (hends ⟨rfl, rfl⟩).2.1
  · obtain ⟨-, -, hreads⟩ := hends ⟨rfl, rfl⟩
    exact (hreads _ rfl).2.1

end StoreClient.Stream
