import StoreClient.Proofs.Operation.Answers
import StoreClient.Stream

/-!
# What a move of a stream does

What a move does to the producing end of a stream (`Produces`), and what it does to the queue and
its consumer (`Consumes`). Both are given by cases, with what the events of the move tell: the
replies that were decoded, the items that were queued, the readers that were claimed, and what the
reader reported.
-/

namespace StoreClient.Stream

variable {σ : Signature} {ι : Type}

/-! ## Events -/

/-- What the reader tells its caller about the stream: an item that it hands out, a failure, or the
end. -/
inductive Report (ι : Type) where
  | item (i : ι)
  | failure (c : Cause)
  | ended
  deriving DecidableEq

/-- The item that a report hands out. -/
def Report.item? : Report ι → Option ι
  | item i => some i
  | _ => none

namespace Event

def decoded? : Event σ ι → Option σ.Reply
  | decoded reply => some reply
  | _ => none

def queued? : Event σ ι → Option ι
  | queued i => some i
  | _ => none

def report? : Event σ ι → Option (Report ι)
  | ready (.ok false) => some .ended
  | ready (.error (.failed c)) => some (.failure c)
  | item (.ok i) => some (.item i)
  | next none => some .ended
  | next (some (.ok i)) => some (.item i)
  | next (some (.error (.failed c))) => some (.failure c)
  | _ => none

/-- Whether a reader was claimed. -/
def isClaim : Event σ ι → Bool
  | claimed (.ok _) => true
  | _ => false

/-- The replies that were decoded, in the order of their arrival. -/
def replies (events : List (Event σ ι)) : List σ.Reply := events.filterMap decoded?

/-- The items that were queued. -/
def queuedItems (events : List (Event σ ι)) : List ι := events.filterMap queued?

/-- What the reader reported. -/
def reports (events : List (Event σ ι)) : List (Report ι) := events.filterMap report?

/-- The items that the reader handed out. -/
def handed (events : List (Event σ ι)) : List ι := (reports events).filterMap Report.item?

/-- How many readers were claimed. -/
def claims (events : List (Event σ ι)) : Nat := events.countP isClaim

@[simp] theorem replies_append (es fs : List (Event σ ι)) :
    replies (es ++ fs) = replies es ++ replies fs := List.filterMap_append

@[simp] theorem queuedItems_append (es fs : List (Event σ ι)) :
    queuedItems (es ++ fs) = queuedItems es ++ queuedItems fs := List.filterMap_append

@[simp] theorem reports_append (es fs : List (Event σ ι)) :
    reports (es ++ fs) = reports es ++ reports fs := List.filterMap_append

@[simp] theorem handed_append (es fs : List (Event σ ι)) :
    handed (es ++ fs) = handed es ++ handed fs := by
  simp [handed]

@[simp] theorem claims_append (es fs : List (Event σ ι)) :
    claims (es ++ fs) = claims es + claims fs := List.countP_append

@[simp] theorem replies_singleton (e : Event σ ι) : replies [e] = e.decoded?.toList := by
  cases h : e.decoded? <;> simp [replies, h]

@[simp] theorem queuedItems_singleton (e : Event σ ι) : queuedItems [e] = e.queued?.toList := by
  cases h : e.queued? <;> simp [queuedItems, h]

@[simp] theorem reports_singleton (e : Event σ ι) : reports [e] = e.report?.toList := by
  cases h : e.report? <;> simp [reports, h]

@[simp] theorem handed_singleton (e : Event σ ι) :
    handed [e] = e.report?.toList.filterMap Report.item? := by
  simp [handed]

@[simp] theorem claims_singleton (e : Event σ ι) : claims [e] = e.isClaim.toNat := by
  cases h : e.isClaim <;> simp [claims, h]

/-- Events that tell nothing about replies, items or readers. -/
structure Silent (events : List (Event σ ι)) : Prop where
  replies : replies events = []
  queued : queuedItems events = []
  reports : reports events = []
  claims : claims events = 0

@[simp] theorem silent_nil : Silent ([] : List (Event σ ι)) := ⟨rfl, rfl, rfl, rfl⟩

theorem silent_noticed (ns : List Notice) : Silent (ns.map noticed : List (Event σ ι)) := by
  induction ns with
  | nil => exact silent_nil
  | cons n ns ih => exact ⟨ih.replies, ih.queued, ih.reports, ih.claims⟩

theorem silent_accepted {es : List (Event σ ι)} (h : Silent es) (a : Accepted) :
    Silent (es ++ [accepted a]) where
  replies := by simpa [Event.replies, decoded?] using h.replies
  queued := by simpa [queuedItems, queued?] using h.queued
  reports := by simpa [Event.reports, report?] using h.reports
  claims := by simpa [Event.claims, isClaim] using h.claims

end Event

/-! ## The reader -/

/-- What the reader finds when it looks for the next item. -/
inductive Looks (s : Stream σ ι) (r : Reader ι) : Stream σ ι × Reader ι × Except StreamError Bool →
    Prop where
  | peeked {i : ι} (hp : r.peeked = some i) : Looks s r (s, r, .ok true)
  | fetch {i : ι} {rest : List ι} (hp : r.peeked = none) (hq : s.queue = i :: rest) :
      Looks s r ({ s with queue := rest }, { r with peeked := some i }, .ok true)
  | wait {ms : UInt64} (hp : r.peeked = none) (hq : s.queue = []) (hs : s.hasProducer = true) :
      Looks s r (s, r, .error (.pollTimeout ms))
  | fail {c : Cause} (hp : r.peeked = none) (hq : s.queue = []) (hs : s.hasProducer = false)
      (hf : r.failureReported = false) (hc : s.endCause? = some c) :
      Looks s r (s, { r with failureReported := true }, .error (.failed c))
  | finish (hp : r.peeked = none) (hq : s.queue = []) (hs : s.hasProducer = false)
      (hf : r.failureReported = true ∨ s.endCause? = none) : Looks s r (s, r, .ok false)

theorem looks_hasNext (s : Stream σ ι) (r : Reader ι) : Looks s r (s.hasNext r) := by
  unfold hasNext
  split
  · next hp => exact .peeked hp
  · next hp hq => exact .fetch hp hq
  · next hp hq =>
    split
    · next hs => exact .wait hp hq hs
    · next hs =>
      have hs : s.hasProducer = false := Bool.eq_false_iff.2 hs
      unfold endOfStream
      by_cases hf : r.failureReported = true
      · rw [if_pos hf]
        exact .finish hp hq hs (.inl hf)
      · rw [if_neg hf]
        cases hc : s.endCause? with
        | some c => exact .fail hp hq hs (Bool.eq_false_iff.2 hf) hc
        | none => exact .finish hp hq hs (.inr hc)

/-! ## The producing end -/

/-- Nothing happened to the producing end, and no consumer came. -/
structure SameProducer (s s' : Stream σ ι) : Prop where
  kind : s'.operation.kind = s.operation.kind
  isDone : s'.operation.isDone = s.operation.isDone
  replies : s'.operation.replies = s.operation.replies
  outcome : s'.operation.handle.outcome = s.operation.handle.outcome
  items : s'.items = s.items
  delivery : s'.delivery = s.delivery
  completion : s'.completion = s.completion
  closed : s'.closed = s.closed
  dropped : s'.dropped = s.dropped
  consumer : s'.hasConsumer = true → s.hasConsumer = true

theorem SameProducer.refl (s : Stream σ ι) : s.SameProducer s :=
  ⟨rfl, rfl, rfl, rfl, rfl, rfl, rfl, rfl, rfl, id⟩

/-- What a move does to the producing end of a stream. -/
inductive Produces (s : Stream σ ι) : Stream σ ι × List (Event σ ι) → Prop where
  | still {s' : Stream σ ι} {es : List (Event σ ι)} (h : s.SameProducer s')
      (hr : Event.replies es = []) (hq : Event.queuedItems es = []) : Produces s (s', es)
  | take {m : Message} (hd : s.delivery = none) (hp : s.operation.isDone = false)
      (hl : s.dropped = false) : Produces s ({ s with delivery := some (.received m) }, [])
  | decode {m : Message} {reply : σ.Reply} (hd : s.delivery = some (.received m))
      (hm : s.operation.examine m = .ok reply) :
      Produces s ({ s with delivery := some (.decoded m.code reply) }, [.decoded reply])
  | refuse {m : Message} {c : Cause} (hd : s.delivery = some (.received m))
      (hm : s.operation.examine m = .error c) :
      Produces s ({ s with delivery := some (.settling m.code (.error c)) }, [])
  | share {code : UInt8} {reply : σ.Reply} {rest : List ι}
      (hd : s.delivery = some (.decoded code reply))
      (hr : s.closed = false ∧ rest = s.items reply ∨ s.closed = true ∧ rest = []) :
      Produces s ({ s with delivery := some (.ofRest code reply rest) }, [])
  | push {code : UInt8} {reply : σ.Reply} {i : ι} {rest : List ι}
      (hd : s.delivery = some (.queueing code reply (i :: rest))) (hc : s.hasConsumer = true) :
      Produces s ({ s with queue := s.queue ++ [i], delivery := some (.ofRest code reply rest) },
        [.queued i])
  | discard {code : UInt8} {reply : σ.Reply} {rest : List ι} {es : List (Event σ ι)}
      (hd : s.delivery = some (.queueing code reply rest))
      (hc : s.closed = true ∨ s.hasConsumer = false) (hes : Event.Silent es) :
      Produces s ({ s with delivery := some (.settling code (.ok reply)) }, es)
  | stall {code : UInt8} {reply : σ.Reply} {rest : List ι} {c : Cause}
      (hd : s.delivery = some (.queueing code reply rest)) :
      Produces s ({ s with delivery := some (.settling code (.error c)) }, [])
  -- a reply is settled
  | ignore {code : UInt8} {step : Outcome σ.Reply} {es : List (Event σ ι)}
      (hd : s.delivery = some (.settling code step)) (hp : s.operation.isDone = true)
      (hes : Event.Silent es) : Produces s ({ s with delivery := none }, es)
  | reject {code : UInt8} {c : Cause} {es : List (Event σ ι)}
      (hd : s.delivery = some (.settling code (.error c))) (hp : s.operation.isDone = false)
      (hes : Event.Silent es) :
      Produces s ({ s with
        operation := { s.operation with phase := .done false }
        delivery := none
        completion := some (.publishing (.error c)) }, es)
  | accept {code : UInt8} {reply : σ.Reply} {es : List (Event σ ι)}
      (hd : s.delivery = some (.settling code (.ok reply))) (hp : s.operation.isDone = false)
      (hes : Event.Silent es) :
      Produces s ({ s with
        operation := { s.operation with
          replies := s.operation.replies ++ [reply]
          phase := .awaitingMore }
        delivery := none }, es)
  | finish {code : UInt8} {reply : σ.Reply} {o : Outcome σ.Output} {es : List (Event σ ι)}
      (hd : s.delivery = some (.settling code (.ok reply))) (hp : s.operation.isDone = false)
      (ho : s.operation.kind.convert (s.operation.replies ++ [reply]) = o)
      (hes : Event.Silent es) :
      Produces s ({ s with
        operation := { s.operation with
          replies := s.operation.replies ++ [reply]
          phase := .done o.isOk }
        delivery := none
        completion := some (.publishing o) }, es)
  -- other calls
  | fail {c : Cause} {es : List (Event σ ι)} (hp : s.operation.isDone = false)
      (hl : s.dropped = false) (hes : Event.Silent es) :
      Produces s ({ s with
        operation := { s.operation with phase := .done false }
        completion := some (.publishing (.error c)) }, es)
  | publish {o : Outcome σ.Output} {op : Operation σ} {es : List (Event σ ι)}
      (hc : s.completion = some (.publishing o)) (hop : op = (s.operation.publish o).1)
      (hes : Event.Silent es) :
      Produces s ({ s with operation := op, completion := some .closing }, es)
  | close (hc : s.completion = some .closing) :
      Produces s ({ s with closed := true, completion := none }, [])
  | drop (hd : s.delivery = none) (hc : s.completion = none) :
      Produces s ({ s with dropped := true }, [])

namespace Produces

variable {s : Stream σ ι}

/-- A move that does nothing. -/
theorem idle {es : List (Event σ ι)} (h : Event.Silent es) : Produces s (s, es) :=
  .still (.refl s) h.replies h.queued

theorem of_take (s : Stream σ ι) (m : Message) : Produces s (s.take m) := by
  unfold Stream.take
  split
  · exact idle Event.silent_nil
  · next h =>
    simp only [Bool.or_eq_true, not_or, Bool.not_eq_true, Option.isSome_eq_false_iff,
      Option.isNone_iff_eq_none] at h
    split
    · exact idle ⟨rfl, rfl, rfl, rfl⟩
    · next hp => exact .take h.2 (Bool.eq_false_iff.2 hp) h.1

theorem of_examine (s : Stream σ ι) : Produces s s.examine := by
  unfold Stream.examine
  split
  · next hd =>
    split
    · next hm => exact .decode hd hm
    · next hm => exact .refuse hd hm
  · exact idle Event.silent_nil

theorem of_share (s : Stream σ ι) : Produces s s.share := by
  unfold Stream.share
  split
  · next hd =>
    refine .share hd ?_
    cases s.closed with
    | false => exact .inl ⟨rfl, rfl⟩
    | true => exact .inr ⟨rfl, rfl⟩
  · exact idle Event.silent_nil

theorem of_push (s : Stream σ ι) : Produces s s.push := by
  unfold Stream.push
  split
  · next hd =>
    split
    · next h => exact .push hd (Bool.and_eq_true_iff.1 h).1
    · exact idle Event.silent_nil
  · exact idle Event.silent_nil

theorem of_discard (s : Stream σ ι) : Produces s s.discard := by
  unfold Stream.discard
  split
  · next hd =>
    dsimp only
    split
    · next hc => exact .discard hd (.inl hc) ⟨rfl, rfl, rfl, rfl⟩
    · split
      · next hc => exact .discard hd (.inr (by simpa using hc)) ⟨rfl, rfl, rfl, rfl⟩
      · exact idle Event.silent_nil
  · exact idle Event.silent_nil

theorem of_stall (s : Stream σ ι) : Produces s s.stall := by
  unfold Stream.stall
  split
  · next hd =>
    split
    · exact .stall hd
    · exact idle Event.silent_nil
  · exact idle Event.silent_nil

theorem of_settle (s : Stream σ ι) : Produces s s.settle := by
  unfold Stream.settle
  split
  · next code step hd =>
    rcases s.operation.judge_cases code step with ⟨hp, ns, hj⟩ | ⟨hp, c, ns, rfl, hj⟩ |
      ⟨hp, reply, rfl, hj⟩ | ⟨hp, reply, o, ns, rfl, ho, hj⟩ <;> rw [hj]
    · exact .ignore hd hp (Event.silent_accepted (Event.silent_noticed _) _)
    · exact .reject hd hp (Event.silent_accepted (Event.silent_noticed _) _)
    · exact .accept hd hp (Event.silent_accepted (Event.silent_noticed _) _)
    · exact .finish hd hp ho (Event.silent_accepted (Event.silent_noticed _) _)
  · exact idle Event.silent_nil

theorem of_fail (s : Stream σ ι) (c : Cause) : Produces s (s.fail c) := by
  unfold Stream.fail
  split
  · exact idle Event.silent_nil
  · next hl =>
    rcases s.operation.condemn_cases c with ⟨hp, ns, hj⟩ | ⟨hp, hj⟩ <;> rw [hj]
    · exact idle (Event.silent_noticed _)
    · exact .fail hp (Bool.eq_false_iff.2 hl) (Event.silent_noticed _)

theorem of_publish (s : Stream σ ι) : Produces s s.publish := by
  unfold Stream.publish
  split
  · next hc => exact .publish hc rfl (Event.silent_noticed _)
  · exact idle Event.silent_nil

theorem of_close (s : Stream σ ι) : Produces s s.close := by
  unfold Stream.close
  split
  · next hc => exact .close hc
  · exact idle Event.silent_nil

theorem of_drop (s : Stream σ ι) : Produces s s.drop := by
  unfold Stream.drop
  split
  · next h =>
    simp only [Bool.and_eq_true, Option.isNone_iff_eq_none] at h
    exact .drop h.1 h.2
  · exact idle Event.silent_nil

/-- Results that are alive have the consuming end, or left it to a reader. -/
theorem any_shares_of_isAlive {n : Nat} (h : s.isAlive n = true) : s.shares.any id = true := by
  unfold isAlive at h
  cases hn : s.shares[n]? with
  | none => simp [hn] at h
  | some b =>
    simp only [hn, Option.getD_some] at h
    exact List.any_eq_true.2 ⟨b, List.mem_of_getElem? hn, h⟩

theorem of_submit (s : Stream σ ι) : Produces s s.submit := by
  unfold Stream.submit
  split
  · exact idle Event.silent_nil
  · refine .still ?_ rfl rfl
    unfold Operation.submit
    split
    · next hp =>
      exact { SameProducer.refl s with isDone := by simp [Operation.isDone, hp, Phase.isDone] }
    · exact .refl s

theorem of_listen (s : Stream σ ι) (l : Listener) : Produces s (s.listen l) :=
  .still { SameProducer.refl s with outcome := Handle.outcome_listen _ l }
    (Event.silent_noticed _).replies (Event.silent_noticed _).queued

theorem of_takeResults (s : Stream σ ι) : Produces s s.takeResults := by
  unfold Stream.takeResults
  split
  · next h =>
    refine .still { SameProducer.refl s with consumer := fun hc => ?_ } rfl rfl
    unfold hasConsumer at hc ⊢
    split
    · simp [h]
    · rfl
    · next hr => simp [hr] at hc
  · exact idle Event.silent_nil

theorem of_copyResults (s : Stream σ ι) (n : Nat) : Produces s (s.copyResults n) := by
  unfold Stream.copyResults
  split
  · next h =>
    refine .still { SameProducer.refl s with consumer := fun hc => ?_ } rfl rfl
    unfold hasConsumer at hc ⊢
    split
    · simp [any_shares_of_isAlive h]
    · rfl
    · next hr => simp [hr] at hc
  · exact idle Event.silent_nil

theorem of_dropResults (s : Stream σ ι) (n : Nat) : Produces s (s.dropResults n) := by
  refine .still { SameProducer.refl s with consumer := fun hc => ?_ } rfl rfl
  unfold Stream.dropResults hasConsumer at hc
  unfold hasConsumer
  split
  · next hu =>
    simp only [hu, Bool.or_eq_true, List.any_eq_true] at hc ⊢
    refine hc.imp_right fun ⟨b, hb, hid⟩ => ?_
    rcases List.mem_or_eq_of_mem_set hb with hb | rfl
    · exact ⟨b, hb, hid⟩
    · cases hid
  · rfl
  · next hr => simp [hr] at hc

theorem of_claimReader (s : Stream σ ι) (n : Nat) : Produces s (s.claimReader n) := by
  unfold Stream.claimReader
  split
  · next h =>
    split
    · next hu =>
      refine .still { SameProducer.refl s with consumer := fun _ => ?_ } rfl rfl
      simp [hasConsumer, hu, any_shares_of_isAlive h]
    · exact idle ⟨rfl, rfl, rfl, rfl⟩
  · exact idle Event.silent_nil

/-- A reader does nothing to the producing end. -/
theorem of_reading (hc : s.hasConsumer = true) (queue : List ι) (r : Reader ι)
    {es : List (Event σ ι)} (hr : Event.replies es = []) (hq : Event.queuedItems es = []) :
    Produces s ({ s with queue := queue, claim := .reading r }, es) :=
  .still { SameProducer.refl s with consumer := fun _ => hc } hr hq

theorem of_ask {r : Reader ι} (h : s.claim = .reading r) (what : Reading) :
    Produces s (s.ask r what) := by
  have hc : s.hasConsumer = true := by simp [hasConsumer, h]
  have hl := looks_hasNext s r
  cases what with
  | hasNext =>
    unfold ask
    dsimp only
    generalize s.hasNext r = x at hl ⊢
    cases hl <;> exact of_reading hc _ _ rfl rfl
  | nextItem => exact of_reading hc s.queue _ rfl rfl
  | next =>
    unfold ask next
    dsimp only
    generalize s.hasNext r = x at hl ⊢
    cases hl <;> exact of_reading hc _ _ rfl rfl
  | setTimeout d => exact of_reading hc s.queue _ rfl rfl
  | release => exact .still { SameProducer.refl s with consumer := fun _ => hc } rfl rfl

theorem of_read (s : Stream σ ι) (what : Reading) : Produces s (s.read what) := by
  unfold Stream.read
  split
  · next h => exact of_ask h what
  · exact idle Event.silent_nil

end Produces

/-! ## The consumer -/

/-- The item that the reader made ready. -/
def peeked (s : Stream σ ι) : List ι :=
  match s.claim with
  | .reading r => r.peeked.toList
  | _ => []

/-- What a move does to the queue and its consumer. -/
inductive Consumes (s : Stream σ ι) : Stream σ ι × List (Event σ ι) → Prop where
  | still {s' : Stream σ ι} {es : List (Event σ ι)} (hc : s'.claim = s.claim)
      (hq : s'.queue = s.queue) (hes : Event.queuedItems es = [] ∧ Event.reports es = [] ∧
        Event.claims es = 0) : Consumes s (s', es)
  | push {s' : Stream σ ι} {i : ι} (hd : s.isQueueing = true) (hc : s'.claim = s.claim)
      (hq : s'.queue = s.queue ++ [i]) : Consumes s (s', [.queued i])
  | claim (hc : s.claim = .unclaimed) :
      Consumes s ({ s with claim := .reading { timeout := s.patience } }, [.claimed (.ok ())])
  -- what the reader does
  | fetch {r : Reader ι} {i : ι} {rest : List ι} (hc : s.claim = .reading r)
      (hp : r.peeked = none) (hq : s.queue = i :: rest) :
      Consumes s ({ s with queue := rest, claim := .reading { r with peeked := some i } },
        [.ready (.ok true)])
  | hand {r : Reader ι} {i : ι} {e : Event σ ι} (hc : s.claim = .reading r)
      (hp : r.peeked = some i) (he : e.report? = some (.item i) ∧ e.queued? = none ∧
        e.isClaim = false) :
      Consumes s ({ s with claim := .reading { r with peeked := none } }, [e])
  | pass {r : Reader ι} {i : ι} {rest : List ι} (hc : s.claim = .reading r)
      (hp : r.peeked = none) (hq : s.queue = i :: rest) :
      Consumes s ({ s with queue := rest, claim := .reading { r with peeked := none } },
        [.next (some (.ok i))])
  | fail {r : Reader ι} {c : Cause} {e : Event σ ι} (hc : s.claim = .reading r)
      (hp : r.peeked = none) (hq : s.queue = []) (hs : s.hasProducer = false)
      (hf : r.failureReported = false) (hcause : s.endCause? = some c)
      (he : e.report? = some (.failure c) ∧ e.queued? = none ∧ e.isClaim = false) :
      Consumes s ({ s with claim := .reading { r with failureReported := true } }, [e])
  | finish {r : Reader ι} {e : Event σ ι} (hc : s.claim = .reading r) (hp : r.peeked = none)
      (hq : s.queue = []) (hs : s.hasProducer = false)
      (hf : r.failureReported = true ∨ s.endCause? = none)
      (he : e.report? = some .ended ∧ e.queued? = none ∧ e.isClaim = false) :
      Consumes s ({ s with claim := .reading r }, [e])
  | keep {r r' : Reader ι} {e : Event σ ι} (hc : s.claim = .reading r)
      (hp : r'.peeked = r.peeked) (hf : r'.failureReported = r.failureReported)
      (he : e.report? = none ∧ e.queued? = none ∧ e.isClaim = false) :
      Consumes s ({ s with claim := .reading r' }, [e])
  | release {r : Reader ι} (hc : s.claim = .reading r) :
      Consumes s ({ s with claim := .released }, [])

theorem consumes_hasNext {s : Stream σ ι} {r : Reader ι} (hc : s.claim = .reading r) :
    Consumes s (s.ask r .hasNext) := by
  have hl := looks_hasNext s r
  unfold ask
  dsimp only
  generalize s.hasNext r = x at hl ⊢
  cases hl with
  | peeked hp => exact .keep hc rfl rfl ⟨rfl, rfl, rfl⟩
  | fetch hp hq => exact .fetch hc hp hq
  | wait hp hq hs => exact .keep hc rfl rfl ⟨rfl, rfl, rfl⟩
  | fail hp hq hs hf hcause => exact .fail hc hp hq hs hf hcause ⟨rfl, rfl, rfl⟩
  | finish hp hq hs hf => exact .finish hc hp hq hs hf ⟨rfl, rfl, rfl⟩

theorem consumes_next {s : Stream σ ι} {r : Reader ι} (hc : s.claim = .reading r) :
    Consumes s (s.ask r .next) := by
  have hl := looks_hasNext s r
  unfold ask next
  dsimp only
  generalize s.hasNext r = x at hl ⊢
  cases hl with
  | peeked hp =>
    simp only [nextItem, hp]
    exact .hand hc hp ⟨rfl, rfl, rfl⟩
  | fetch hp hq => exact .pass (r := r) hc hp hq
  | wait hp hq hs => exact .keep hc rfl rfl ⟨rfl, rfl, rfl⟩
  | fail hp hq hs hf hcause => exact .fail hc hp hq hs hf hcause ⟨rfl, rfl, rfl⟩
  | finish hp hq hs hf => exact .finish hc hp hq hs hf ⟨rfl, rfl, rfl⟩

theorem consumes_ask {s : Stream σ ι} {r : Reader ι} (hc : s.claim = .reading r) (what : Reading) :
    Consumes s (s.ask r what) := by
  cases what with
  | hasNext => exact consumes_hasNext hc
  | next => exact consumes_next hc
  | nextItem =>
    unfold ask nextItem
    dsimp only
    split
    · next hp => exact .hand hc hp ⟨rfl, rfl, rfl⟩
    · exact .keep hc rfl rfl ⟨rfl, rfl, rfl⟩
  | setTimeout d => exact .keep hc rfl rfl ⟨rfl, rfl, rfl⟩
  | release => exact .release hc

theorem Consumes.silent {s s' : Stream σ ι} {es : List (Event σ ι)} (hc : s'.claim = s.claim)
    (hq : s'.queue = s.queue) (hes : Event.Silent es) : Consumes s (s', es) :=
  .still hc hq ⟨hes.queued, hes.reports, hes.claims⟩

theorem consumes_push (s : Stream σ ι) : Consumes s s.push := by
  unfold push
  split
  · next hd =>
    split
    · exact .push (by simp [isQueueing, hd]) rfl rfl
    · exact .silent rfl rfl Event.silent_nil
  · exact .silent rfl rfl Event.silent_nil

theorem consumes_settle (s : Stream σ ι) : Consumes s s.settle := by
  unfold settle
  split
  · exact .silent rfl rfl (Event.silent_accepted (Event.silent_noticed _) _)
  · exact .silent rfl rfl Event.silent_nil

theorem consumes_fail (s : Stream σ ι) (c : Cause) : Consumes s (s.fail c) := by
  unfold fail
  split
  · exact .silent rfl rfl Event.silent_nil
  · split <;> exact .silent rfl rfl (Event.silent_noticed _)

theorem consumes_publish (s : Stream σ ι) : Consumes s s.publish := by
  unfold publish
  split
  · exact .silent rfl rfl (Event.silent_noticed _)
  · exact .silent rfl rfl Event.silent_nil

theorem consumes_claimReader (s : Stream σ ι) (n : Nat) : Consumes s (s.claimReader n) := by
  unfold claimReader
  split
  · split
    · next hu => exact .claim hu
    · exact .still rfl rfl ⟨rfl, rfl, rfl⟩
  · exact .silent rfl rfl Event.silent_nil

/-! ## Moves -/

/-- What a move does to the producing end. -/
theorem produces_perform (s : Stream σ ι) (m : Move) : Produces s (s.perform m) := by
  cases m with
  | submit => exact .of_submit s
  | take m => exact .of_take s m
  | examine => exact .of_examine s
  | share => exact .of_share s
  | push => exact .of_push s
  | discard => exact .of_discard s
  | stall => exact .of_stall s
  | settle => exact .of_settle s
  | fail c => exact .of_fail s c
  | publish => exact .of_publish s
  | close => exact .of_close s
  | drop => exact .of_drop s
  | listen l => exact .of_listen s l
  | takeResults => exact .of_takeResults s
  | copyResults n => exact .of_copyResults s n
  | dropResults n => exact .of_dropResults s n
  | claim n => exact .of_claimReader s n
  | read what => exact .of_read s what

/-- What a move does to the queue and its consumer. -/
theorem consumes_perform (s : Stream σ ι) (m : Move) : Consumes s (s.perform m) := by
  cases m with
  | push => exact consumes_push s
  | settle => exact consumes_settle s
  | fail c => exact consumes_fail s c
  | publish => exact consumes_publish s
  | claim n => exact consumes_claimReader s n
  | listen l => exact .silent rfl rfl (Event.silent_noticed _)
  | read what =>
    simp only [perform, read]
    split
    · next hc => exact consumes_ask hc what
    · exact .silent rfl rfl Event.silent_nil
  | dropResults n => exact .silent rfl rfl Event.silent_nil
  | submit =>
    simp only [perform, submit]
    split <;> exact .silent rfl rfl Event.silent_nil
  | take m =>
    simp only [perform, take]
    split
    · exact .silent rfl rfl Event.silent_nil
    · split <;> exact .still rfl rfl ⟨rfl, rfl, rfl⟩
  | examine =>
    simp only [perform, examine]
    split
    · split <;> exact .still rfl rfl ⟨rfl, rfl, rfl⟩
    · exact .silent rfl rfl Event.silent_nil
  | discard =>
    simp only [perform, discard]
    split
    · split
      · exact .still rfl rfl ⟨rfl, rfl, rfl⟩
      · split <;> exact .still rfl rfl ⟨rfl, rfl, rfl⟩
    · exact .silent rfl rfl Event.silent_nil
  | stall =>
    simp only [perform, stall]
    split
    · split <;> exact .silent rfl rfl Event.silent_nil
    · exact .silent rfl rfl Event.silent_nil
  | share =>
    simp only [perform, share]
    split <;> exact .silent rfl rfl Event.silent_nil
  | close =>
    simp only [perform, close]
    split <;> exact .silent rfl rfl Event.silent_nil
  | drop =>
    simp only [perform, drop]
    split <;> exact .silent rfl rfl Event.silent_nil
  | takeResults =>
    simp only [perform, takeResults]
    split <;> exact .still rfl rfl ⟨rfl, rfl, rfl⟩
  | copyResults n =>
    simp only [perform, copyResults]
    split <;> exact .still rfl rfl ⟨rfl, rfl, rfl⟩

end StoreClient.Stream
