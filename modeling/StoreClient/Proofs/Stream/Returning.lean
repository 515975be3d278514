import StoreClient.Proofs.Stream.Room

/-!
# Calls that nobody reads beside

A reply that is fed while nobody else does anything goes from point to point: its items are queued
up to the last, or until the queue is full (`Finishes`), and then it is settled or given up. So its
call returns, and makes no moves but those of a call (`receive_returns`).
-/

namespace StoreClient.Stream

variable {σ : Signature} {ι : Type} {s t : Stream σ ι}

/-! ## Points of a delivery -/

theorem isBlocked_iff : t.isBlocked = true ↔
    (∃ code reply rest, t.delivery = some (.queueing code reply rest)) ∧ t.closed = false ∧
      t.hasConsumer = true ∧ t.capacity ≤ t.queue.length := by
  have hqueueing : t.isQueueing = true ↔
      ∃ code reply rest, t.delivery = some (.queueing code reply rest) := by
    unfold isQueueing
    split <;> simp_all
  simp only [isBlocked, Bool.and_eq_true, Bool.not_eq_true', decide_eq_true_eq, hqueueing,
    and_assoc]

theorem ofRest_of_ne_nil {xs : List ι} (h : xs ≠ []) (code : UInt8) (reply : σ.Reply) :
    Delivery.ofRest code reply xs = .queueing code reply xs := by
  cases xs with
  | nil => exact absurd rfl h
  | cons i xs => rfl

/-- To settle a reply is the last thing that its call does. -/
theorem returned_of_settling {code : UInt8} {v : Outcome σ.Reply}
    (hd : t.delivery = some (.settling code v)) (hc : t.completion = none) :
    (t.run [.settle, .publish, .close]).1.hasReturned = true := by
  obtain ⟨⟨op, a, o, ns⟩, hj⟩ : ∃ r, t.operation.judge code v = r := ⟨_, rfl⟩
  have hsettle := settle_of_judge hd hc hj
  cases o <;> simp [run, perform, hsettle, publish, close, hasReturned]

theorem run_replicate_of_idle {mv : Move} (h : t.perform mv = (t, [])) (n : Nat) :
    t.run (List.replicate n mv) = (t, []) := by
  induction n with
  | zero => rfl
  | succ n ih => simp only [List.replicate_succ, run, h, ih, List.append_nil]

/-- Items are queued as long as there is room. -/
theorem run_pushes {code : UInt8} {reply : σ.Reply} {xs : List ι} (n : Nat)
    (hd : t.delivery = some (.ofRest code reply xs)) (hc : t.hasConsumer = true)
    (hn : n ≤ xs.length) (hroom : n ≤ t.capacity - t.queue.length) :
    (t.run (List.replicate n .push)).1 = { t with
      queue := t.queue ++ xs.take n, delivery := some (.ofRest code reply (xs.drop n)) } := by
  induction n generalizing t xs with
  | zero =>
    rw [List.take_zero, List.append_nil, List.drop_zero, ← hd]
    rfl
  | succ n ih =>
    cases xs with
    | nil => exact absurd hn (Nat.not_succ_le_zero n)
    | cons i xs =>
      let pushed : Stream σ ι := { t with
        queue := t.queue ++ [i], delivery := some (.ofRest code reply xs) }
      have hpush : (t.perform .push).1 = pushed := by
        have hwaiting : t.delivery = some (.queueing code reply (i :: xs)) := hd
        have hfree : t.queue.length < t.capacity := by omega
        show t.push.1 = pushed
        unfold push
        rw [hwaiting]
        dsimp only
        rw [if_pos (by simp [hc, hfree])]
      have hroom' : n ≤ pushed.capacity - pushed.queue.length := by
        show n ≤ t.capacity - (t.queue ++ [i]).length
        rw [List.length_append, List.length_singleton]
        omega
      have hpushed := ih (t := pushed) rfl hc (Nat.le_of_succ_le_succ hn) hroom'
      show ((t.perform .push).1.run (List.replicate n .push)).1 = _
      rw [hpush, hpushed]
      simp [pushed]

/-! ## From point to point -/

/-- A delivery that is followed makes moves of its call, and comes to its end or to a full queue. -/
def Finishes (t : Stream σ ι) (n : Nat) : Prop :=
  ∃ ms, (∀ mv ∈ ms, mv.isProcessing = true) ∧ t.follow n = t.run ms ∧
    ((t.run ms).1.hasReturned = true ∨
      (t.run ms).1.isBlocked = true ∧ (t.run ms).1.completion = none)

namespace Finishes

theorem of_returned (h : t.hasReturned = true) (n : Nat) : t.Finishes n :=
  ⟨[], fun _ hm => absurd hm List.not_mem_nil, follow_of_none (hasReturned_iff.1 h).1 n, .inl h⟩

theorem step {n : Nat} (hms : ∀ mv ∈ t.nextMoves, mv.isProcessing = true)
    (h : (t.run t.nextMoves).1.Finishes n) : t.Finishes (n + 1) := by
  obtain ⟨ms, hall, hfollow, hend⟩ := h
  refine ⟨t.nextMoves ++ ms, ?_, ?_, ?_⟩
  · intro mv hm
    rcases List.mem_append.1 hm with hm | hm
    · exact hms mv hm
    · exact hall mv hm
  · rw [run_append, follow_of_run (Prod.ext rfl rfl), hfollow]
  · rw [run_append]
    exact hend

/-- A delivery that finds the queue full waits. -/
theorem of_blocked (h : t.isBlocked = true) (hc : t.completion = none) (n : Nat) :
    t.Finishes n := by
  induction n with
  | zero => exact ⟨[], fun _ hm => absurd hm List.not_mem_nil, rfl, .inr ⟨h, hc⟩⟩
  | succ n ih =>
    obtain ⟨⟨code, reply, rest, hd⟩, hcl, hcons, hfull⟩ := isBlocked_iff.1 h
    have hdiscard : t.discard = (t, []) := by
      unfold discard
      rw [hd]
      simp [hcl, hcons]
    have hmoves : t.nextMoves = [.discard] := by
      rw [nextMoves, hd]
      simp [Nat.sub_eq_zero_of_le hfull]
    have hstill : (t.run t.nextMoves).1 = t := by
      simp [hmoves, run, perform, hdiscard]
    refine step ?_ ?_
    · simp [hmoves, Move.isProcessing]
    · rw [hstill]
      exact ih

theorem of_settling {code : UInt8} {v : Outcome σ.Reply} (hd : t.delivery = some (.settling code v))
    (hc : t.completion = none) (n : Nat) : t.Finishes (n + 1) := by
  have hmoves : t.nextMoves = [.settle, .publish, .close] := by rw [nextMoves, hd]
  refine step ?_ (of_returned ?_ n)
  · simp [hmoves, Move.isProcessing]
  · rw [hmoves]
    exact returned_of_settling hd hc

/-- A delivery whose items are made queues them, as far as they find room. -/
theorem of_queueing {code : UInt8} {reply : σ.Reply} {rest : List ι}
    (hd : t.delivery = some (.queueing code reply rest)) (hrest : rest ≠ [])
    (hc : t.completion = none) (hcl : t.closed = false) (n : Nat) : t.Finishes (n + 2) := by
  let k := min rest.length (t.capacity - t.queue.length)
  have hmoves : t.nextMoves = .discard :: List.replicate k .push := by rw [nextMoves, hd]
  have hall : ∀ mv ∈ t.nextMoves, mv.isProcessing = true := by
    rw [hmoves]
    intro mv hm
    rcases List.mem_cons.1 hm with rfl | hm
    · rfl
    · rw [List.eq_of_mem_replicate hm]
      rfl
  refine step hall ?_
  rw [hmoves]
  show ((t.discard.1.run (List.replicate k .push)).1).Finishes (n + 1)
  cases hcons : t.hasConsumer with
  | false =>
    let given : Stream σ ι := { t with delivery := some (.settling code (.ok reply)) }
    have hdiscard : t.discard.1 = given := by
      unfold discard
      rw [hd]
      simp [hcl, hcons, given]
    rw [hdiscard, run_replicate_of_idle rfl]
    exact of_settling (t := given) rfl hc n
  | true =>
    have hdiscard : t.discard.1 = t := by
      unfold discard
      rw [hd]
      simp [hcl, hcons]
    have hwaiting : t.delivery = some (.ofRest code reply rest) := by
      rw [ofRest_of_ne_nil hrest, hd]
    let pushed : Stream σ ι := { t with
      queue := t.queue ++ rest.take k, delivery := some (.ofRest code reply (rest.drop k)) }
    have hpushes : (t.run (List.replicate k .push)).1 = pushed :=
      run_pushes k hwaiting hcons (Nat.min_le_left _ _) (Nat.min_le_right _ _)
    rw [hdiscard, hpushes]
    rcases Nat.lt_or_ge (t.capacity - t.queue.length) rest.length with hlt | hge
    · -- the queue is full before the last item
      have hk : k = t.capacity - t.queue.length := Nat.min_eq_right (Nat.le_of_lt hlt)
      have hfull : t.capacity ≤ (t.queue ++ rest.take k).length := by
        rw [List.length_append, List.length_take]
        omega
      have hleft : rest.drop k ≠ [] := by
        rw [Ne, List.drop_eq_nil_iff]
        omega
      have hwaits : pushed.delivery = some (.queueing code reply (rest.drop k)) :=
        congrArg some (ofRest_of_ne_nil hleft code reply)
      exact of_blocked (isBlocked_iff.2 ⟨⟨_, _, _, hwaits⟩, hcl, hcons, hfull⟩) hc (n + 1)
    · have hk : k = rest.length := Nat.min_eq_left hge
      have hsettling : pushed.delivery = some (.settling code (.ok reply)) := by
        show some (Delivery.ofRest code reply (rest.drop k)) = _
        rw [hk, List.drop_length]
        rfl
      exact of_settling hsettling hc n

/-- A reply that is taken up is decoded, and its items are made. -/
theorem of_received {m : Message} {reply : σ.Reply} (hd : t.delivery = some (.received m))
    (hx : t.operation.examine m = .ok reply) (hi : t.interruptions reply = [])
    (hc : t.completion = none) (hcl : t.closed = false) (n : Nat) : t.Finishes (n + 4) := by
  let decoded := t.delivering (.decoded m.code reply)
  let shared := t.delivering (.ofRest m.code reply (t.items reply))
  have hexamine : (t.run t.nextMoves).1 = decoded := by
    simp [nextMoves, hd, run, perform, examine, hx, decoded, delivering]
  have hmoves : decoded.nextMoves = [.share] := by
    show (t.interruptions reply).flatMap failing ++ [.share] = [.share]
    rw [hi]
    rfl
  have hshare : (decoded.run decoded.nextMoves).1 = shared := by
    rw [hmoves]
    simp [run, perform, share, decoded, shared, delivering, hcl]
  have hshared : shared.Finishes (n + 2) := by
    by_cases hnone : t.items reply = []
    · have hsettling : shared.delivery = some (.settling m.code (.ok reply)) := by
        show some (Delivery.ofRest m.code reply (t.items reply)) = _
        rw [hnone]
        rfl
      exact of_settling hsettling hc (n + 1)
    · have hqueueing : shared.delivery = some (.queueing m.code reply (t.items reply)) :=
        congrArg some (ofRest_of_ne_nil hnone m.code reply)
      exact of_queueing hqueueing hnone hc hcl n
  refine step ?_ ?_
  · simp [nextMoves, hd, Move.isProcessing]
  · rw [hexamine]
    refine step ?_ (hshare ▸ hshared)
    simp [hmoves, Move.isProcessing]

end Finishes

/-! ## The whole call -/

/-- A reply for which no room came is settled as a failure. -/
theorem giveUp_of_blocked (h : t.isBlocked = true) (hc : t.completion = none) :
    t.giveUp = t.run [.stall, .settle, .publish, .close] ∧ t.giveUp.1.hasReturned = true := by
  obtain ⟨⟨code, reply, rest, hd⟩, -, hcons, hfull⟩ := isBlocked_iff.1 h
  let c := Cause.consumerStalled t.patience.milliseconds
  let stalled := t.delivering (.settling code (.error c))
  have hstall : t.perform .stall = (stalled, []) := by
    show t.stall = _
    unfold stall
    rw [hd]
    simp [hcons, hfull, stalled, delivering, c]
  have hgiveUp : t.giveUp = t.run [.stall, .settle, .publish, .close] := by
    have hmoves : stalled.nextMoves = [.settle, .publish, .close] := rfl
    simp only [giveUp, hstall, follow, hmoves]
    simp [run, hstall]
  refine ⟨hgiveUp, ?_⟩
  have hreturned := returned_of_settling (t := stalled) rfl hc
  rw [hgiveUp]
  simpa only [run, hstall] using hreturned

/-- A call that nobody reads beside, and in which no failure is reported, returns. -/
theorem receive_returns {m : Message} {reply : σ.Reply} (hq : s.IsQuiet) (hd : s.delivery = none)
    (hp : s.operation.isDone = false) (hcl : s.closed = false)
    (hx : s.operation.examine m = .ok reply) (hi : s.interruptions reply = []) :
    ∃ ms, (∀ mv ∈ ms, mv.isProcessing = true) ∧ s.receive m = s.run (.take m :: ms) ∧
      (s.receive m).1.hasReturned = true := by
  let received := s.delivering (.received m)
  have htake : s.perform (.take m) = (received, []) := by
    show s.take m = _
    unfold take
    rw [if_neg (by simp [hq.dropped, hd]), if_neg (by simp [hp])]
    rfl
  obtain ⟨ms, hall, hfollow, hend⟩ := Finishes.of_received (t := received) rfl hx hi
    hq.completion hcl 0
  have hstart : s.start m = received.run ms := by
    simp only [start, htake, hfollow, List.nil_append]
  have hrun (ms : List Move) : s.run (.take m :: ms) = received.run ms := by
    simp only [run, htake, List.nil_append]
  rcases hend with hreturned | ⟨hblocked, hc⟩
  · have hreceive : s.receive m = received.run ms := by
      have hnone := (hasReturned_iff.1 hreturned).1
      simp only [receive, hstart, giveUp_of_none hnone, List.append_nil]
    refine ⟨ms, hall, ?_, ?_⟩
    · rw [hreceive, hrun]
    · rwa [hreceive]
  · obtain ⟨hgiveUp, hreturned⟩ := giveUp_of_blocked hblocked hc
    have hreceive : s.receive m = received.run (ms ++ [.stall, .settle, .publish, .close]) := by
      rw [run_append, ← hgiveUp]
      simp only [receive, hstart]
    refine ⟨ms ++ [.stall, .settle, .publish, .close], ?_, ?_, ?_⟩
    · have hlast : ∀ mv ∈ [Move.stall, .settle, .publish, .close], mv.isProcessing = true := by
        simp [Move.isProcessing]
      intro mv hm
      rcases List.mem_append.1 hm with hm | hm
      · exact hall mv hm
      · exact hlast mv hm
    · rw [hreceive, hrun]
    · rw [hreceive, run_append, ← hgiveUp]
      exact hreturned

end StoreClient.Stream
