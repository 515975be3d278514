import StoreClient.Proofs.Operation.Reference
import StoreClient.Proofs.Stream.Liveness
import StoreClient.Stream.Producer

/-!
# Calls on a stream

A `Talk` is a stream on which calls are made one after another, each when the one before it has
returned. Between any two moves of a call the consumer may do whatever it likes: take, copy and drop
the results, claim the reader, read, and drop it.

The next move of a call is settled by the stream (`nextMove?`), for a kind whose items are made
without reporting failures. It is blocked only where an item is to be queued, somebody may still
read it, and the queue is full (`isBlocked`). Every move of a call leaves less for it to do
(`Goes.movesLeft_lt`), and what the consumer does leaves as much. So where no call is blocked for
ever, all of them return (`Talk.exists_returned_of_unblocked`).
-/

namespace StoreClient

/-- The move that a call begins with. -/
def Call.move : Call → Stream.Move
  | submit => .submit
  | reply m => .take m
  | fail c => .fail c
  | listen l => .listen l

namespace Stream

variable {σ : Signature} {ι : Type} {s s' : Stream σ ι} {es fs : List (Event σ ι)}

/-! ## Answers -/

namespace Event

@[simp] theorem answers_append (es fs : List (Event σ ι)) :
    answers (es ++ fs) = answers es ++ answers fs := List.filterMap_append

@[simp] theorem answers_nil : answers ([] : List (Event σ ι)) = [] := rfl

@[simp] theorem answers_accepted (a : Accepted) :
    answers [(accepted a : Event σ ι)] = [a.isFinished] := rfl

@[simp] theorem answers_noticed (ns : List Notice) :
    answers (ns.map noticed : List (Event σ ι)) = [] := by
  induction ns with
  | nil => rfl
  | cons n ns ih => exact ih

end Event

/-! ## What the consumer does -/

/-- Whether a move is up to the consumer. -/
def Move.isConsuming : Move → Bool
  | takeResults | copyResults _ | dropResults _ | claim _ | read _ => true
  | _ => false

/-- Nothing happened to the calls of the operation. -/
structure SameCalls (s s' : Stream σ ι) : Prop where
  operation : s'.operation = s.operation
  items : s'.items = s.items
  interruptions : s'.interruptions = s.interruptions
  delivery : s'.delivery = s.delivery
  completion : s'.completion = s.completion
  closed : s'.closed = s.closed
  dropped : s'.dropped = s.dropped

theorem SameCalls.refl (s : Stream σ ι) : s.SameCalls s := ⟨rfl, rfl, rfl, rfl, rfl, rfl, rfl⟩

theorem sameCalls_hasNext (s : Stream σ ι) (r : Reader ι) : s.SameCalls (s.hasNext r).1 := by
  have hl := looks_hasNext s r
  generalize s.hasNext r = x at hl
  cases hl <;> exact ⟨rfl, rfl, rfl, rfl, rfl, rfl, rfl⟩

theorem sameCalls_next (s : Stream σ ι) (r : Reader ι) : s.SameCalls (s.next r).1 := by
  have h := sameCalls_hasNext s r
  unfold next
  split <;> next heq =>
    rw [heq] at h
    exact h

theorem sameCalls_ask (s : Stream σ ι) (r : Reader ι) (what : Reading) :
    s.SameCalls (s.ask r what).1 ∧ Event.answers (s.ask r what).2 = [] := by
  cases what with
  | hasNext =>
    have h := sameCalls_hasNext s r
    exact ⟨⟨h.1, h.2, h.3, h.4, h.5, h.6, h.7⟩, rfl⟩
  | next =>
    have h := sameCalls_next s r
    exact ⟨⟨h.1, h.2, h.3, h.4, h.5, h.6, h.7⟩, rfl⟩
  | _ => exact ⟨⟨rfl, rfl, rfl, rfl, rfl, rfl, rfl⟩, rfl⟩

/-- What the consumer does neither changes the calls nor answers them. -/
theorem sameCalls_perform {m : Move} (hm : m.isConsuming = true) :
    s.SameCalls (s.perform m).1 ∧ Event.answers (s.perform m).2 = [] := by
  cases m with
  | takeResults =>
    simp only [perform, takeResults]
    split <;> exact ⟨⟨rfl, rfl, rfl, rfl, rfl, rfl, rfl⟩, rfl⟩
  | copyResults n =>
    simp only [perform, copyResults]
    split <;> exact ⟨⟨rfl, rfl, rfl, rfl, rfl, rfl, rfl⟩, rfl⟩
  | dropResults n => exact ⟨⟨rfl, rfl, rfl, rfl, rfl, rfl, rfl⟩, rfl⟩
  | claim n =>
    simp only [perform, claimReader]
    split
    · split <;> exact ⟨⟨rfl, rfl, rfl, rfl, rfl, rfl, rfl⟩, rfl⟩
    · exact ⟨.refl s, rfl⟩
  | read what =>
    simp only [perform, read]
    split
    · exact sameCalls_ask s _ what
    · exact ⟨.refl s, rfl⟩
  | _ => cases hm

/-! ## Moves of a call -/

/-- Whether no call goes on. -/
def hasReturned (s : Stream σ ι) : Bool := s.delivery.isNone && s.completion.isNone

/-- Whether an item is to be queued which may still be read, and for which there is no room. -/
def isBlocked (s : Stream σ ι) : Bool :=
  s.isQueueing && !s.closed && s.hasConsumer && decide (s.capacity ≤ s.queue.length)

/-- Without a consumer there is nobody to wait for. -/
theorem isBlocked_of_noConsumer (h : s.hasConsumer = false) : s.isBlocked = false := by
  simp [isBlocked, h]

/-- The next move of the call that goes on, unless it is blocked. -/
def nextMove? (s : Stream σ ι) : Option Move :=
  match s.delivery with
  | some (.queueing _ _ _) =>
    if s.closed || !s.hasConsumer then some .discard
    else if s.queue.length < s.capacity then some .push
    else none
  | some _ => s.nextMoves.head?
  | none => match s.completion with
    | some (.publishing _) => some .publish
    | some .closing => some .close
    | none => none

theorem hasReturned_iff : s.hasReturned = true ↔ s.delivery = none ∧ s.completion = none := by
  simp [hasReturned]

/-- Calls are made one at a time, and go on until they return. -/
structure Steady (s : Stream σ ι) : Prop where
  dropped : s.dropped = false
  /-- No failure is reported while items are made. -/
  uninterrupted : ∀ reply, s.interruptions reply = []
  single : s.delivery.isSome = true → s.completion = none
  queueing : ∀ {code : UInt8} {reply : σ.Reply} {rest : List ι},
    s.delivery = some (.queueing code reply rest) → rest ≠ []

/-- What the next move of a call does. -/
inductive Goes (s : Stream σ ι) : Stream σ ι × List (Event σ ι) → Prop where
  | decode {m : Message} {reply : σ.Reply} (hd : s.delivery = some (.received m))
      (hm : s.operation.examine m = .ok reply) :
      Goes s ({ s with delivery := some (.decoded m.code reply) }, [.decoded reply])
  | refuse {m : Message} {c : Cause} (hd : s.delivery = some (.received m))
      (hm : s.operation.examine m = .error c) :
      Goes s ({ s with delivery := some (.settling m.code (.error c)) }, [])
  | share {code : UInt8} {reply : σ.Reply} {rest : List ι}
      (hd : s.delivery = some (.decoded code reply))
      (hr : s.closed = false ∧ rest = s.items reply ∨ s.closed = true ∧ rest = []) :
      Goes s ({ s with delivery := some (.ofRest code reply rest) }, [])
  | push {code : UInt8} {reply : σ.Reply} {i : ι} {rest : List ι}
      (hd : s.delivery = some (.queueing code reply (i :: rest))) :
      Goes s ({ s with queue := s.queue ++ [i], delivery := some (.ofRest code reply rest) },
        [.queued i])
  | discard {code : UInt8} {reply : σ.Reply} {rest : List ι} {n : Notice}
      (hd : s.delivery = some (.queueing code reply rest))
      (hc : s.closed = true ∨ s.hasConsumer = false) :
      Goes s ({ s with delivery := some (.settling code (.ok reply)) }, [.noticed n])
  | settle {code : UInt8} {step : Outcome σ.Reply} {op : Operation σ} {a : Accepted}
      {o : Option (Outcome σ.Output)} {ns : List Notice}
      (hd : s.delivery = some (.settling code step))
      (hj : s.operation.judge code step = (op, a, o, ns)) :
      Goes s ({ s with operation := op, delivery := none, completion := o.map .publishing },
        ns.map .noticed ++ [.accepted a])
  | publish {o : Outcome σ.Output} (hd : s.delivery = none)
      (hc : s.completion = some (.publishing o)) :
      Goes s ({ s with operation := (s.operation.publish o).1, completion := some .closing },
        (s.operation.publish o).2.map .noticed)
  | close (hd : s.delivery = none) (hc : s.completion = some .closing) :
      Goes s ({ s with closed := true, completion := none }, [])

theorem settle_of_judge {code : UInt8} {step : Outcome σ.Reply} {op : Operation σ} {a : Accepted}
    {o : Option (Outcome σ.Output)} {ns : List Notice}
    (hd : s.delivery = some (.settling code step)) (hc : s.completion = none)
    (hj : s.operation.judge code step = (op, a, o, ns)) :
    s.settle = ({ s with operation := op, delivery := none, completion := o.map .publishing },
      ns.map .noticed ++ [.accepted a]) := by
  unfold settle
  rw [hd]
  dsimp only
  rw [hj]
  cases o with
  | none =>
    dsimp only
    rw [hc]
    rfl
  | some o => rfl

theorem goes_settle (hs : s.Steady) {code : UInt8} {step : Outcome σ.Reply}
    (hd : s.delivery = some (.settling code step)) : Goes s s.settle := by
  have hc := hs.single (by simp [hd])
  obtain ⟨⟨op, a, o, ns⟩, hj⟩ : ∃ r, s.operation.judge code step = r := ⟨_, rfl⟩
  rw [settle_of_judge hd hc hj]
  exact .settle hd hj

/-- The next move of a call does one of these. -/
theorem goes_perform (hs : s.Steady) {m : Move} (hm : s.nextMove? = some m) :
    Goes s (s.perform m) := by
  unfold nextMove? at hm
  cases hd : s.delivery with
  | none =>
    rw [hd] at hm
    cases hc : s.completion with
    | none =>
      rw [hc] at hm
      cases hm
    | some x =>
      rw [hc] at hm
      cases x with
      | publishing o =>
        cases hm
        simp only [perform, publish, hc]
        exact .publish hd hc
      | closing =>
        cases hm
        simp only [perform, close, hc]
        exact .close hd hc
  | some d =>
    rw [hd] at hm
    cases d with
    | received msg =>
      have hmove : m = .examine := by simpa [nextMoves, hd] using hm.symm
      rw [hmove]
      simp only [perform, examine, hd]
      split
      · next hx => exact .decode hd hx
      · next hx => exact .refuse hd hx
    | decoded code reply =>
      have hmove : m = .share := by simpa [nextMoves, hd, hs.uninterrupted] using hm.symm
      rw [hmove]
      simp only [perform, share, hd]
      refine .share hd ?_
      cases s.closed with
      | false => exact .inl ⟨rfl, rfl⟩
      | true => exact .inr ⟨rfl, rfl⟩
    | queueing code reply rest =>
      dsimp only at hm
      split at hm
      · next hgone =>
        cases hm
        simp only [perform, discard, hd]
        split
        · next hcl => exact .discard hd (.inl hcl)
        · next hcl =>
          have hcons : s.hasConsumer = false := by simpa [hcl] using hgone
          simp only [hcons, Bool.not_false, if_true]
          exact .discard hd (.inr hcons)
      · next hgone =>
        split at hm
        · next hroom =>
          cases hm
          obtain ⟨i, rest, rfl⟩ := List.exists_cons_of_ne_nil (hs.queueing hd)
          have hcons : s.hasConsumer = true := by simp_all
          simp only [perform, push, hd, hcons, hroom, Bool.true_and, decide_true, if_true]
          exact .push hd
        · cases hm
    | settling code step =>
      have hmove : m = .settle := by simpa [nextMoves, hd] using hm.symm
      rw [hmove]
      exact goes_settle hs hd

/-- A call that goes on has a next move, unless it is blocked. -/
theorem exists_nextMove (hs : s.Steady) (hr : s.hasReturned = false)
    (hb : s.isBlocked = false) : ∃ m, s.nextMove? = some m := by
  unfold nextMove?
  cases hd : s.delivery with
  | none =>
    cases hc : s.completion with
    | none => simp [hasReturned, hd, hc] at hr
    | some x => cases x <;> exact ⟨_, rfl⟩
  | some d =>
    cases d with
    | received msg => simp [nextMoves, hd]
    | decoded code reply => simp [nextMoves, hd, hs.uninterrupted]
    | settling code step => simp [nextMoves, hd]
    | queueing code reply rest =>
      dsimp only
      split
      · exact ⟨_, rfl⟩
      · next hgone =>
        simp only [Bool.or_eq_true, Bool.not_eq_true', not_or, Bool.not_eq_true,
          Bool.not_eq_false] at hgone
        have hroom : s.queue.length < s.capacity := by
          simpa [isBlocked, isQueueing, hd, hgone.1, hgone.2] using hb
        exact ⟨_, if_pos hroom⟩

theorem rest_ne_nil_of_ofRest {code code' : UInt8} {reply reply' : σ.Reply} {xs rest : List ι}
    (h : Delivery.ofRest code reply xs = .queueing code' reply' rest) : rest ≠ [] := by
  cases xs with
  | nil => cases h
  | cons x xs =>
    cases h
    exact List.cons_ne_nil x xs

namespace Steady

/-- A delivery goes on. -/
theorem deliver (hs : s.Steady) {d d' : Delivery σ ι} (hd : s.delivery = some d)
    (hd' : s'.delivery = some d') (hc : s'.completion = s.completion)
    (hl : s'.dropped = s.dropped) (hi : s'.interruptions = s.interruptions)
    (hq : ∀ {code : UInt8} {reply : σ.Reply} {rest : List ι},
      d' = .queueing code reply rest → rest ≠ []) : s'.Steady where
  dropped := hl.trans hs.dropped
  uninterrupted := hi ▸ hs.uninterrupted
  single _ := hc.trans (hs.single (by simp [hd]))
  queueing h := hq (Option.some.inj (hd'.symm.trans h))

/-- No reply is delivered. -/
theorem of_none (hs : s.Steady) (hd : s'.delivery = none) (hl : s'.dropped = s.dropped)
    (hi : s'.interruptions = s.interruptions) : s'.Steady where
  dropped := hl.trans hs.dropped
  uninterrupted := hi ▸ hs.uninterrupted
  single h := by simp [hd] at h
  queueing h := by simp [hd] at h

theorem of_same (hs : s.Steady) (h : s.SameCalls s') : s'.Steady where
  dropped := h.dropped.trans hs.dropped
  uninterrupted := h.interruptions ▸ hs.uninterrupted
  single hd := h.completion.trans (hs.single (h.delivery ▸ hd))
  queueing hd := hs.queueing (h.delivery ▸ hd)

end Steady

theorem Goes.steady (h : Goes s (s', es)) (hs : s.Steady) : s'.Steady := by
  cases h with
  | decode hd => exact hs.deliver hd rfl rfl rfl rfl fun h => by cases h
  | refuse hd => exact hs.deliver hd rfl rfl rfl rfl fun h => by cases h
  | share hd => exact hs.deliver hd rfl rfl rfl rfl rest_ne_nil_of_ofRest
  | push hd => exact hs.deliver hd rfl rfl rfl rfl rest_ne_nil_of_ofRest
  | discard hd => exact hs.deliver hd rfl rfl rfl rfl fun h => by cases h
  | settle => exact hs.of_none rfl rfl rfl
  | publish hd => exact hs.of_none hd rfl rfl
  | close hd => exact hs.of_none hd rfl rfl

/-! ## How much is left -/

/-- How many moves the call that goes on makes at most. -/
def movesLeft (s : Stream σ ι) : Nat :=
  if s.delivery.isSome then s.deliveryRank + 2 else Completion.rank s.completion

theorem movesLeft_of_some {d : Delivery σ ι} (hd : s.delivery = some d) :
    s.movesLeft = s.deliveryRank + 2 := by
  simp [movesLeft, hd]

theorem movesLeft_of_none (hd : s.delivery = none) :
    s.movesLeft = Completion.rank s.completion := by
  simp [movesLeft, hd]

/-- A move of a call leaves less for it to do. -/
theorem Goes.movesLeft_lt (h : Goes s (s', es)) : s'.movesLeft < s.movesLeft := by
  cases h with
  | decode hd hm =>
    rw [movesLeft_of_some hd, movesLeft_of_some rfl]
    simp [deliveryRank, hd, hm]
  | refuse hd hm =>
    rw [movesLeft_of_some hd, movesLeft_of_some rfl]
    simp [deliveryRank, hd, hm]
  | share hd hr =>
    rw [movesLeft_of_some hd, movesLeft_of_some rfl]
    exact Nat.add_lt_add_right (deliveryRank_share hd hr) 2
  | push hd =>
    rw [movesLeft_of_some hd, movesLeft_of_some rfl]
    exact Nat.add_lt_add_right (deliveryRank_push hd _) 2
  | discard hd =>
    rw [movesLeft_of_some hd, movesLeft_of_some rfl]
    simp only [deliveryRank, hd]
    omega
  | @settle code step op a o ns hd hj =>
    have hrank : s.deliveryRank = 1 := by simp [deliveryRank, hd]
    rw [movesLeft_of_some hd, movesLeft_of_none rfl, hrank]
    cases o <;> simp [Completion.rank]
  | publish hd hc => simp [movesLeft, hd, hc, Completion.rank]
  | close hd hc => simp [movesLeft, hd, hc, Completion.rank]

theorem Goes.hasReturned_eq_false (h : Goes s (s', es)) : s.hasReturned = false := by
  have hlt := h.movesLeft_lt
  refine Bool.eq_false_iff.2 fun hr => ?_
  obtain ⟨hd, hc⟩ := hasReturned_iff.1 hr
  simp [movesLeft, hd, hc, Completion.rank] at hlt

theorem SameCalls.movesLeft_eq (h : s.SameCalls s') : s'.movesLeft = s.movesLeft := by
  simp only [movesLeft, deliveryRank, h.delivery, h.completion, h.items, h.operation]

theorem SameCalls.hasProducer_eq (h : s.SameCalls s') : s'.hasProducer = s.hasProducer := by
  simp only [hasProducer, isQueueing, h.closed, h.dropped, h.delivery]

/-- A reader that is asked for the next item goes on reading, and no producing end comes up. -/
theorem perform_next {r : Reader ι} (hc : s.claim = .reading r) :
    (s.perform (.read .next)).1.claim = .reading (s.next r).2.1 ∧
      (s.perform (.read .next)).1.hasProducer = s.hasProducer := by
  refine ⟨?_, (sameCalls_perform (m := .read .next) rfl).1.hasProducer_eq⟩
  simp only [perform, read, hc, ask]

theorem SameCalls.hasReturned_eq (h : s.SameCalls s') : s'.hasReturned = s.hasReturned := by
  simp only [hasReturned, h.delivery, h.completion]

/-! ## A new call -/

/-- What the first move of a call does. -/
inductive Begins (s : Stream σ ι) : Call → Stream σ ι × List (Event σ ι) → Prop where
  | submit : Begins s .submit ({ s with operation := s.operation.submit }, [])
  | take {m : Message} (hp : s.operation.isDone = false) :
      Begins s (.reply m) ({ s with delivery := some (.received m) }, [])
  | ignore {m : Message} {n : Notice} (hp : s.operation.isDone = true) :
      Begins s (.reply m) (s, [.noticed n, .accepted .ignored])
  | condemn {c : Cause} (hp : s.operation.isDone = false) :
      Begins s (.fail c) ({ s with
        operation := { s.operation with phase := .done false }
        completion := some (.publishing (.error c)) }, [])
  | late {c : Cause} {n : Notice} (hp : s.operation.isDone = true) :
      Begins s (.fail c) (s, [.noticed n])
  | listen {l : Listener} :
      Begins s (.listen l) ({ s with operation := (s.operation.listen l).1 },
        (s.operation.listen l).2.map .noticed)

theorem begins_perform (hl : s.dropped = false) (hd : s.delivery = none) (c : Call) :
    Begins s c (s.perform c.move) := by
  have hl' : ¬ s.dropped = true := Bool.eq_false_iff.1 hl
  cases c with
  | submit =>
    simp only [Call.move, perform, submit]
    rw [if_neg hl']
    exact .submit
  | reply m =>
    have hfree : ¬ (s.dropped || s.delivery.isSome) = true := by simp [hl, hd]
    simp only [Call.move, perform, take]
    rw [if_neg hfree]
    split
    · next hp => exact .ignore hp
    · next hp => exact .take (Bool.eq_false_iff.2 hp)
  | fail c =>
    simp only [Call.move, perform, fail]
    rw [if_neg hl']
    cases hp : s.operation.isDone with
    | true =>
      simp only [Operation.condemn, hp, if_true]
      exact .late hp
    | false =>
      simp only [Operation.condemn, hp, Bool.false_eq_true, if_false]
      exact .condemn hp
  | listen l => exact .listen

theorem Begins.steady {c : Call} (h : Begins s c (s', es)) (hs : s.Steady)
    (hr : s.hasReturned = true) : s'.Steady := by
  obtain ⟨hd, hc⟩ := hasReturned_iff.1 hr
  cases h with
  | submit => exact hs.of_none hd rfl rfl
  | take => exact ⟨hs.dropped, hs.uninterrupted, fun _ => hc, fun h => by cases h⟩
  | ignore => exact hs
  | condemn => exact hs.of_none hd rfl rfl
  | late => exact hs
  | listen => exact hs.of_none hd rfl rfl

end Stream

/-! ## Talks -/

/-- Calls are made on a stream one after another, while the consumer does what it likes. -/
structure Talk (σ : Signature) (ι : Type) where
  stream : Stream σ ι
  /-- The calls to come. -/
  waiting : List Call
  /-- The calls that were begun. Each but the last has returned. -/
  made : List Call := []
  events : List (Stream.Event σ ι) := []

namespace Talk

open StoreClient.Stream

variable {σ : Signature} {ι : Type}

/-- Makes a move. -/
def perform (x : Talk σ ι) (m : Move) : Talk σ ι :=
  { x with stream := (x.stream.perform m).1, events := x.events ++ (x.stream.perform m).2 }

/-- Makes moves one after another. -/
def performAll (x : Talk σ ι) (ms : List Move) : Talk σ ι := ms.foldl perform x

/-- Lets the call that goes on make its next move, or begins the next call. A call that is blocked
waits. -/
def goOn (x : Talk σ ι) : Talk σ ι :=
  match x.stream.nextMove? with
  | some m => x.perform m
  | none =>
    if x.stream.hasReturned then
      match x.waiting with
      | [] => x
      | c :: rest => { x with waiting := rest, made := x.made ++ [c] }.perform c.move
    else x

/-- The talk after `t` steps, before each of which the consumer makes the moves it likes. -/
def after (x : Talk σ ι) (consumer : Nat → List Move) : Nat → Talk σ ι
  | 0 => x
  | t + 1 => ((x.after consumer t).performAll (consumer t)).goOn

/-! ### Steps -/

variable {x y : Talk σ ι} {consumer : Nat → List Move}

/-- What comes of a step. -/
inductive Step (x : Talk σ ι) : Talk σ ι → Prop where
  /-- The call makes its next move. -/
  | goes {s : Stream σ ι} {es : List (Event σ ι)} (hg : Goes x.stream (s, es)) :
      Step x { x with stream := s, events := x.events ++ es }
  /-- The next call is begun. -/
  | begins {c : Call} {rest : List Call} {s : Stream σ ι} {es : List (Event σ ι)}
      (hr : x.stream.hasReturned = true) (hw : x.waiting = c :: rest)
      (hb : Begins x.stream c (s, es)) :
      Step x { stream := s, waiting := rest, made := x.made ++ [c], events := x.events ++ es }
  /-- All calls have returned. -/
  | rests (hr : x.stream.hasReturned = true) (hw : x.waiting = []) : Step x x
  | waits (hb : x.stream.isBlocked = true) : Step x x

theorem step_goOn (hs : x.stream.Steady) : Step x x.goOn := by
  unfold goOn
  split
  · next m hm => exact .goes (goes_perform hs hm)
  · next hm =>
    split
    · next hr =>
      split
      · next hw => exact .rests hr hw
      · next c rest hw =>
        exact .begins hr hw (begins_perform hs.dropped (hasReturned_iff.1 hr).1 c)
    · next hr =>
      refine .waits ?_
      by_contra hb
      obtain ⟨m, hm'⟩ := exists_nextMove hs (Bool.eq_false_iff.2 hr) (Bool.eq_false_iff.2 hb)
      rw [hm] at hm'
      cases hm'

theorem Step.steady (h : Step x y) (hs : x.stream.Steady) : y.stream.Steady := by
  cases h with
  | goes hg => exact hg.steady hs
  | begins hr hw hb => exact hb.steady hs hr
  | rests => exact hs
  | waits => exact hs

/-- The calls made and those to come are the same as before. -/
theorem Step.calls (h : Step x y) : y.made ++ y.waiting = x.made ++ x.waiting := by
  cases h with
  | begins hr hw hb => simp [hw]
  | goes | rests | waits => rfl

/-! ### What the consumer does -/

/-- Nothing happened to the calls, and none was answered. -/
structure Same (x y : Talk σ ι) : Prop where
  stream : x.stream.SameCalls y.stream
  waiting : y.waiting = x.waiting
  made : y.made = x.made
  answers : Event.answers y.events = Event.answers x.events

theorem same_performAll (x : Talk σ ι) {ms : List Move} (hm : ∀ m ∈ ms, m.isConsuming = true) :
    Same x (x.performAll ms) := by
  induction ms generalizing x with
  | nil => exact ⟨.refl x.stream, rfl, rfl, rfl⟩
  | cons m ms ih =>
    obtain ⟨hsame, hanswers⟩ := sameCalls_perform (s := x.stream) (hm m List.mem_cons_self)
    have hrest := ih (x.perform m) fun m' hm' => hm m' (List.mem_cons_of_mem m hm')
    obtain ⟨h₁, h₂, h₃, h₄, h₅, h₆, h₇⟩ := hrest.stream
    exact {
      stream := ⟨h₁.trans hsame.1, h₂.trans hsame.2, h₃.trans hsame.3, h₄.trans hsame.4,
        h₅.trans hsame.5, h₆.trans hsame.6, h₇.trans hsame.7⟩
      waiting := hrest.waiting
      made := hrest.made
      answers := by
        rw [show x.performAll (m :: ms) = (x.perform m).performAll ms from rfl, hrest.answers,
          perform, Event.answers_append, hanswers, List.append_nil] }

/-! ### Consumers that leave -/

/-- Moves bring no consumer back. -/
theorem hasConsumer_performAll (x : Talk σ ι) (ms : List Move)
    (h : (x.performAll ms).stream.hasConsumer = true) : x.stream.hasConsumer = true := by
  induction ms generalizing x with
  | nil => exact h
  | cons m ms ih => exact (produces_perform x.stream m).consumer (ih (x.perform m) h)

/-- Nor does a step of the calls. -/
theorem hasConsumer_goOn (x : Talk σ ι) (h : x.goOn.stream.hasConsumer = true) :
    x.stream.hasConsumer = true := by
  unfold goOn at h
  split at h
  · next m _ => exact (produces_perform x.stream m).consumer h
  · split at h
    · split at h
      · exact h
      · next c _ _ => exact (produces_perform x.stream c.move).consumer h
    · exact h

theorem hasConsumer_after (x : Talk σ ι) (consumer : Nat → List Move) {t u : Nat} (htu : t ≤ u)
    (h : (x.after consumer u).stream.hasConsumer = true) :
    (x.after consumer t).stream.hasConsumer = true := by
  induction u, htu using Nat.le_induction with
  | base => exact h
  | succ u _ ih => exact ih (hasConsumer_performAll _ _ (hasConsumer_goOn _ h))

/-- Once the consumer has left, no call is blocked any more. -/
theorem isBlocked_after_of_noConsumer {t u : Nat} (htu : t ≤ u)
    (h : (x.after consumer t).stream.hasConsumer = false) :
    ((x.after consumer u).performAll (consumer u)).stream.isBlocked = false := by
  refine isBlocked_of_noConsumer (Bool.eq_false_iff.2 fun hc => ?_)
  have hearlier := hasConsumer_after x consumer htu (hasConsumer_performAll _ _ hc)
  exact absurd (h.symm.trans hearlier) Bool.false_ne_true

/-! ### Runs -/

section After

variable (hs : x.stream.Steady) (hc : ∀ t, ∀ m ∈ consumer t, m.isConsuming = true)

include hs hc

theorem steady_after (t : Nat) : (x.after consumer t).stream.Steady := by
  induction t with
  | zero => exact hs
  | succ t ih =>
    have hcons := ih.of_same (same_performAll _ (hc t)).stream
    exact (step_goOn hcons).steady hcons

/-- Each step is one of the calls after what the consumer did. -/
theorem step_after (t : Nat) :
    Step ((x.after consumer t).performAll (consumer t)) (x.after consumer (t + 1)) :=
  step_goOn ((steady_after hs hc t).of_same (same_performAll _ (hc t)).stream)

theorem calls_after (t : Nat) :
    (x.after consumer t).made ++ (x.after consumer t).waiting = x.made ++ x.waiting := by
  induction t with
  | zero => rfl
  | succ t ih =>
    have hsame := same_performAll (x.after consumer t) (hc t)
    rw [(step_after hs hc t).calls, hsame.made, hsame.waiting, ih]

/-- A call that goes on makes its next move, if it is not blocked, and otherwise stays where it
is. -/
theorem further_or_blocked (t : Nat) (hr : (x.after consumer t).stream.hasReturned = false) :
    (x.after consumer (t + 1)).made = (x.after consumer t).made ∧
      ((x.after consumer (t + 1)).stream.movesLeft < (x.after consumer t).stream.movesLeft ∨
        ((x.after consumer t).performAll (consumer t)).stream.isBlocked = true ∧
          (x.after consumer (t + 1)).stream.movesLeft = (x.after consumer t).stream.movesLeft ∧
          (x.after consumer (t + 1)).stream.hasReturned = false) := by
  have hsame := same_performAll (x.after consumer t) (hc t)
  have hr' : ((x.after consumer t).performAll (consumer t)).stream.hasReturned = false :=
    hsame.stream.hasReturned_eq.trans hr
  have hstep := step_after hs hc t
  generalize x.after consumer (t + 1) = y at hstep
  cases hstep with
  | goes hg =>
    have hlt := hg.movesLeft_lt
    rw [hsame.stream.movesLeft_eq] at hlt
    exact ⟨hsame.made, .inl hlt⟩
  | begins hr'' => exact absurd (hr'.symm.trans hr'') Bool.false_ne_true
  | rests hr'' => exact absurd (hr'.symm.trans hr'') Bool.false_ne_true
  | waits hb => exact ⟨hsame.made, .inr ⟨hb, hsame.stream.movesLeft_eq, hr'⟩⟩

section Unblocked

variable (hb : ∀ t, ∃ u, t ≤ u ∧
  ((x.after consumer u).performAll (consumer u)).stream.isBlocked = false)

include hb

/-- A call that is not blocked for ever makes its next move some time. -/
theorem exists_further (t : Nat) (hr : (x.after consumer t).stream.hasReturned = false) :
    ∃ v, (x.after consumer v).made = (x.after consumer t).made ∧
      (x.after consumer v).stream.movesLeft < (x.after consumer t).stream.movesLeft := by
  obtain ⟨u, htu, hu⟩ := hb t
  obtain ⟨d, rfl⟩ := Nat.exists_eq_add_of_le htu
  clear htu
  induction d generalizing t with
  | zero =>
    obtain ⟨hmade, hlt | ⟨hblocked, -⟩⟩ := further_or_blocked hs hc t hr
    · exact ⟨t + 1, hmade, hlt⟩
    · exact absurd (hu.symm.trans hblocked) Bool.false_ne_true
  | succ d ih =>
    obtain ⟨hmade, hlt | ⟨-, hleft, hr'⟩⟩ := further_or_blocked hs hc t hr
    · exact ⟨t + 1, hmade, hlt⟩
    · obtain ⟨v, hv, hlt⟩ := ih (t + 1) hr' (by rwa [Nat.add_assoc, Nat.add_comm 1 d])
      exact ⟨v, hv.trans hmade, hleft ▸ hlt⟩

/-- So it returns. -/
theorem exists_return (t : Nat) : ∃ u, (x.after consumer u).stream.hasReturned = true ∧
    (x.after consumer u).made = (x.after consumer t).made := by
  obtain ⟨n, hn⟩ : ∃ n, (x.after consumer t).stream.movesLeft = n := ⟨_, rfl⟩
  induction n using Nat.strongRecOn generalizing t with
  | ind n ih =>
    cases hr : (x.after consumer t).stream.hasReturned with
    | true => exact ⟨t, hr, rfl⟩
    | false =>
      obtain ⟨v, hmade, hlt⟩ := exists_further hs hc hb t hr
      obtain ⟨u, hu, hmade'⟩ := ih _ (hn ▸ hlt) v rfl
      exact ⟨u, hu, hmade'.trans hmade⟩

/-- So all calls return, one after another. -/
theorem exists_returned_of_unblocked (hr : x.stream.hasReturned = true) (hm : x.made = []) {n : Nat}
    (hn : n ≤ x.waiting.length) : ∃ t, (x.after consumer t).stream.hasReturned = true ∧
      (x.after consumer t).made = x.waiting.take n := by
  induction n with
  | zero => exact ⟨0, hr, hm⟩
  | succ n ih =>
    obtain ⟨t, hret, hmade⟩ := ih (Nat.le_of_succ_le hn)
    have hsame := same_performAll (x.after consumer t) (hc t)
    have hcalls := calls_after hs hc t
    have hret' : ((x.after consumer t).performAll (consumer t)).stream.hasReturned = true :=
      hsame.stream.hasReturned_eq.trans hret
    have hwait : ((x.after consumer t).performAll (consumer t)).waiting = x.waiting.drop n := by
      rw [hmade, hm, List.nil_append] at hcalls
      rw [hsame.waiting]
      exact List.append_cancel_left (hcalls.trans (List.take_append_drop n x.waiting).symm)
    have hnext : (x.after consumer (t + 1)).made = x.waiting.take (n + 1) := by
      have hstep := step_after hs hc t
      generalize x.after consumer (t + 1) = y at hstep
      cases hstep with
      | goes hg => exact absurd (hg.hasReturned_eq_false.symm.trans hret') Bool.false_ne_true
      | @begins c rest s es _ hw =>
        have hc' : x.waiting[n]? = some c := by
          rw [← List.head?_drop, ← hwait, hw]
          rfl
        rw [List.take_add_one, hc', ← hmade, ← hsame.made]
        rfl
      | rests _ hw =>
        rw [hwait, List.drop_eq_nil_iff] at hw
        exact absurd hn (Nat.not_le_of_lt (Nat.lt_succ_of_le hw))
      | waits hb' => simp [isBlocked, isQueueing, (hasReturned_iff.1 hret').1] at hb'
    obtain ⟨u, hu, hu'⟩ := exists_return hs hc hb (t + 1)
    exact ⟨u, hu, hu'.trans hnext⟩

end Unblocked

/-- All calls return where none of them is ever blocked. -/
theorem exists_returned
    (hb : ∀ t, ((x.after consumer t).performAll (consumer t)).stream.isBlocked = false)
    (hr : x.stream.hasReturned = true) (hm : x.made = []) {n : Nat} (hn : n ≤ x.waiting.length) :
    ∃ t, (x.after consumer t).stream.hasReturned = true ∧
      (x.after consumer t).made = x.waiting.take n :=
  exists_returned_of_unblocked hs hc (fun t => ⟨t, Nat.le_refl t, hb t⟩) hr hm hn

end After

end Talk

end StoreClient
