import StoreClient.Proofs.Operation.Lifecycle
import StoreClient.Proofs.Stream.Calls
import StoreClient.Proofs.Stream.Completeness

/-!
# Streams and plain operations

A stream on which calls are made, and whose consumer does whatever it likes in the meantime, agrees
with a plain operation of the same kind on which the same calls are made: whenever a call has
returned, the replies were answered alike, and the operations are the same (`agrees_with_plain`).
While a call goes on, the stream is between the plain operation before the call and that after it
(`Agrees`); only the queue tells how far it is.
-/

namespace StoreClient

/-! ## Plain operations -/

namespace Operation

variable {σ : Signature}

/-- What is answered to the replies among calls. -/
def answers (op : Operation σ) : List Call → List Bool
  | [] => []
  | c :: calls => (op.perform c).2.1.toList ++ (op.perform c).1.answers calls

theorem run_append_singleton (op : Operation σ) (calls : List Call) (c : Call) :
    (op.run (calls ++ [c])).1 = ((op.run calls).1.perform c).1 := by
  rw [run_append]
  rfl

theorem answers_append_singleton (op : Operation σ) (calls : List Call) (c : Call) :
    op.answers (calls ++ [c]) = op.answers calls ++ ((op.run calls).1.perform c).2.1.toList := by
  induction calls generalizing op with
  | nil => exact List.append_nil _
  | cons d calls ih =>
    rw [List.cons_append, answers, ih, answers, List.append_assoc]
    rfl

end Operation

/-! ## Deliveries -/

namespace Delivery

variable {σ : Signature} {ι : Type} {op : Operation σ} {m : Message}

/-- The delivery is that of a message to an operation. -/
def IsOf (op : Operation σ) (m : Message) : Delivery σ ι → Prop
  | received m' => m' = m
  | decoded code reply => code = m.code ∧ op.examine m = .ok reply
  | queueing code reply _ => code = m.code ∧ op.examine m = .ok reply
  | settling code step => code = m.code ∧ op.examine m = step

theorem isOf_ofRest {code : UInt8} {reply : σ.Reply} (hc : code = m.code)
    (hr : op.examine m = .ok reply) (rest : List ι) :
    (ofRest code reply rest).IsOf op m := by
  cases rest <;> exact ⟨hc, hr⟩

end Delivery

namespace Stream

variable {σ : Signature} {ι : Type} {s s' : Stream σ ι} {es : List (Event σ ι)} {op : Operation σ}
  {calls : List Call} {answers : List Bool}

/-! ## One call -/

/-- The stream is where calls on the operation lead to, or on the way there. -/
inductive Agrees (op : Operation σ) (s : Stream σ ι) (calls : List Call) (answers : List Bool) :
    Prop where
  | returned (hr : s.hasReturned = true) (hop : s.operation = (op.run calls).1)
      (ha : answers = op.answers calls)
  /-- A reply is processed, and the operation is still as it was before. -/
  | delivering {before : List Call} {m : Message} {d : Delivery σ ι}
      (hcalls : calls = before ++ [.reply m]) (hd : s.delivery = some d)
      (hof : d.IsOf s.operation m) (hp : s.operation.isDone = false)
      (hop : s.operation = (op.run before).1) (ha : answers = op.answers before)
  /-- The handle is still to be completed. -/
  | publishing {o : Outcome σ.Output} (hd : s.delivery = none)
      (hc : s.completion = some (.publishing o))
      (hop : (s.operation.publish o).1 = (op.run calls).1) (ha : answers = op.answers calls)
  | closing (hd : s.delivery = none) (hc : s.completion = some .closing)
      (hop : s.operation = (op.run calls).1) (ha : answers = op.answers calls)

namespace Agrees

/-- While a reply is delivered, the operation is as before. -/
theorem of_delivery (h : Agrees op s calls answers) {d : Delivery σ ι}
    (hd : s.delivery = some d) : ∃ before m, calls = before ++ [.reply m] ∧ d.IsOf s.operation m ∧
      s.operation.isDone = false ∧ s.operation = (op.run before).1 ∧
      answers = op.answers before := by
  cases h with
  | returned hr =>
    rw [(hasReturned_iff.1 hr).1] at hd
    cases hd
  | delivering hcalls hd' hof hp hop ha =>
    obtain rfl := Option.some.inj (hd'.symm.trans hd)
    exact ⟨_, _, hcalls, hof, hp, hop, ha⟩
  | publishing hd' => rw [hd'] at hd; cases hd
  | closing hd' => rw [hd'] at hd; cases hd

theorem of_publishing (h : Agrees op s calls answers) (hd : s.delivery = none)
    {o : Outcome σ.Output} (hc : s.completion = some (.publishing o)) :
    (s.operation.publish o).1 = (op.run calls).1 ∧ answers = op.answers calls := by
  cases h with
  | returned hr =>
    rw [(hasReturned_iff.1 hr).2] at hc
    cases hc
  | delivering _ hd' => rw [hd] at hd'; cases hd'
  | publishing _ hc' hop ha =>
    rw [hc'] at hc
    cases hc
    exact ⟨hop, ha⟩
  | closing _ hc' => rw [hc'] at hc; cases hc

theorem of_closing (h : Agrees op s calls answers) (hd : s.delivery = none)
    (hc : s.completion = some .closing) :
    s.operation = (op.run calls).1 ∧ answers = op.answers calls := by
  cases h with
  | returned hr =>
    rw [(hasReturned_iff.1 hr).2] at hc
    cases hc
  | delivering _ hd' => rw [hd] at hd'; cases hd'
  | publishing _ hc' => rw [hc'] at hc; cases hc
  | closing _ _ hop ha => exact ⟨hop, ha⟩

theorem of_returned (h : Agrees op s calls answers) (hr : s.hasReturned = true) :
    s.operation = (op.run calls).1 ∧ answers = op.answers calls := by
  obtain ⟨hd, hc⟩ := hasReturned_iff.1 hr
  cases h with
  | returned _ hop ha => exact ⟨hop, ha⟩
  | delivering _ hd' => rw [hd] at hd'; cases hd'
  | publishing _ hc' => rw [hc] at hc'; cases hc'
  | closing _ hc' => rw [hc] at hc'; cases hc'

theorem of_same (h : Agrees op s calls answers) (hs : s.SameCalls s') :
    Agrees op s' calls answers := by
  cases h with
  | returned hr hop ha =>
    exact .returned (hs.hasReturned_eq.trans hr) (hs.operation.trans hop) ha
  | delivering hcalls hd hof hp hop ha =>
    refine .delivering hcalls (hs.delivery.trans hd) ?_ ?_ (hs.operation.trans hop) ha
    · rwa [hs.operation]
    · rwa [hs.operation]
  | publishing hd hc hop ha =>
    refine .publishing (hs.delivery.trans hd) (hs.completion.trans hc) ?_ ha
    rwa [hs.operation]
  | closing hd hc hop ha =>
    exact .closing (hs.delivery.trans hd) (hs.completion.trans hc) (hs.operation.trans hop) ha

/-- A delivery that goes on is of the same message. -/
theorem deliver (h : Agrees op s calls answers) {d d' : Delivery σ ι} (hd : s.delivery = some d)
    (hd' : s'.delivery = some d') (hop' : s'.operation = s.operation)
    (hof' : ∀ m, d.IsOf s.operation m → d'.IsOf s.operation m) : Agrees op s' calls answers := by
  obtain ⟨before, m, hcalls, hof, hp, hop, ha⟩ := h.of_delivery hd
  refine .delivering hcalls hd' ?_ ?_ (hop'.trans hop) ha
  · rw [hop']
    exact hof' m hof
  · rwa [hop']

/-- To settle a reply is to make the step that a plain operation makes of it. -/
theorem settle (h : Agrees op s calls answers) {code : UInt8} {step : Outcome σ.Reply}
    (hd : s.delivery = some (.settling code step)) {op' : Operation σ} {a : Accepted}
    {o : Option (Outcome σ.Output)} {ns : List Notice}
    (hj : s.operation.judge code step = (op', a, o, ns)) :
    Agrees op { s with operation := op', delivery := none, completion := o.map .publishing } calls
      (answers ++ [a.isFinished]) := by
  obtain ⟨before, m, rfl, ⟨rfl, rfl⟩, hp, hop, rfl⟩ := h.of_delivery hd
  have hreceive : s.operation.receive m = s.operation.settle m.code (s.operation.examine m) := by
    rw [Operation.receive, if_neg (by simp [hp])]
  have hanswers : op.answers before ++ [a.isFinished] = op.answers (before ++ [.reply m]) := by
    rw [Operation.answers_append_singleton, ← hop]
    simp only [Operation.perform, hreceive, Operation.settle, hj]
    cases o <;> rfl
  have hrun : (op.run (before ++ [.reply m])).1 = (s.operation.receive m).1 := by
    rw [Operation.run_append_singleton, ← hop]
    rfl
  rw [hreceive, Operation.settle, hj] at hrun
  rw [hanswers]
  cases o with
  | none => exact .returned rfl hrun.symm rfl
  | some o => exact .publishing rfl rfl hrun.symm rfl

/-- A move of a call leaves the stream where the call leads to, or on the way. -/
theorem goes (h : Agrees op s calls answers) (hg : Goes s (s', es)) :
    Agrees op s' calls (answers ++ Event.answers es) := by
  cases hg with
  | @decode m reply hd hm =>
    rw [show Event.answers [.decoded reply] = ([] : List Bool) from rfl, List.append_nil]
    refine h.deliver hd rfl rfl fun m' hof => ?_
    cases hof
    exact ⟨rfl, hm⟩
  | refuse hd hm =>
    rw [Event.answers_nil, List.append_nil]
    refine h.deliver hd rfl rfl fun m' hof => ?_
    cases hof
    exact ⟨rfl, hm⟩
  | share hd =>
    rw [Event.answers_nil, List.append_nil]
    exact h.deliver hd rfl rfl fun m' hof => Delivery.isOf_ofRest hof.1 hof.2 _
  | @push code reply i rest hd =>
    rw [show Event.answers [.queued i] = ([] : List Bool) from rfl, List.append_nil]
    exact h.deliver hd rfl rfl fun m' hof => Delivery.isOf_ofRest hof.1 hof.2 _
  | @discard code reply rest n hd =>
    rw [show Event.answers [.noticed n] = ([] : List Bool) from rfl, List.append_nil]
    exact h.deliver hd rfl rfl fun m' hof => hof
  | settle hd hj =>
    rw [Event.answers_append, Event.answers_noticed, List.nil_append, Event.answers_accepted]
    exact h.settle hd hj
  | publish hd hc =>
    obtain ⟨hop, ha⟩ := h.of_publishing hd hc
    rw [Event.answers_noticed, List.append_nil]
    exact .closing hd rfl hop ha
  | close hd hc =>
    obtain ⟨hop, ha⟩ := h.of_closing hd hc
    rw [Event.answers_nil, List.append_nil]
    exact .returned (hasReturned_iff.2 ⟨hd, rfl⟩) hop ha

/-- The first move of a call leaves the stream where the call leads to, or on the way. -/
theorem begins (h : Agrees op s calls answers) (hr : s.hasReturned = true) {c : Call}
    (hb : Begins s c (s', es)) : Agrees op s' (calls ++ [c]) (answers ++ Event.answers es) := by
  obtain ⟨hd, hc⟩ := hasReturned_iff.1 hr
  obtain ⟨hop, rfl⟩ := h.of_returned hr
  have hrun : (op.run (calls ++ [c])).1 = (s.operation.perform c).1 := by
    rw [Operation.run_append_singleton, hop]
  have hanswers : op.answers (calls ++ [c]) =
      op.answers calls ++ (s.operation.perform c).2.1.toList := by
    rw [Operation.answers_append_singleton, hop]
  cases hb with
  | submit => exact .returned hr hrun.symm hanswers.symm
  | take hp =>
    rw [Event.answers_nil, List.append_nil]
    exact .delivering rfl rfl rfl hp hop rfl
  | @ignore m n hp =>
    have hreceive : s.operation.receive m =
        (s.operation, .ignored, [.logged (.lateReply m.code s.operation.phase)]) := by
      rw [Operation.receive, if_pos hp]
    simp only [Operation.perform, hreceive] at hrun hanswers
    exact .returned hr hrun.symm hanswers.symm
  | @condemn c hp =>
    have hcond : s.operation.condemn c = ({ s.operation with phase := .done false }, true, []) := by
      rw [Operation.condemn, if_neg (by simp [hp])]
    simp only [Operation.perform, Operation.fail, hcond] at hrun hanswers
    exact .publishing hd rfl hrun.symm hanswers.symm
  | @late c n hp =>
    have hcond : s.operation.condemn c = (s.operation, false, [.logged (.lateFailure c)]) := by
      rw [Operation.condemn, if_pos hp]
    simp only [Operation.perform, Operation.fail, hcond] at hrun hanswers
    exact .returned hr hrun.symm hanswers.symm
  | listen =>
    rw [Event.answers_noticed]
    exact .returned hr hrun.symm hanswers.symm

end Agrees

end Stream

/-! ## Any number of calls -/

namespace Talk

open StoreClient.Stream

variable {σ : Signature} {ι : Type} {x y : Talk σ ι} {op : Operation σ}

/-- The stream of a talk agrees with the operation after the calls made. -/
def Agrees (op : Operation σ) (x : Talk σ ι) : Prop :=
  Stream.Agrees op x.stream x.made (Event.answers x.events)

theorem Agrees.of_same (h : Agrees op x) (hs : Same x y) : Agrees op y := by
  unfold Agrees
  rw [hs.made, hs.answers]
  exact Stream.Agrees.of_same h hs.stream

theorem Agrees.step (h : Agrees op x) (hs : Step x y) : Agrees op y := by
  unfold Agrees
  cases hs with
  | goes hg =>
    rw [Event.answers_append]
    exact Stream.Agrees.goes h hg
  | begins hr hw hb =>
    rw [Event.answers_append]
    exact Stream.Agrees.begins h hr hb
  | rests => exact h
  | waits => exact h

theorem Agrees.after (h : Agrees op x) (hs : x.stream.Steady) {consumer : Nat → List Move}
    (hc : ∀ t, ∀ m ∈ consumer t, m.isConsuming = true) (t : Nat) :
    Agrees op (x.after consumer t) := by
  induction t with
  | zero => exact h
  | succ t ih => exact (ih.of_same (same_performAll _ (hc t))).step (step_after hs hc t)

end Talk

namespace Stream

variable {σ : Signature} {ι : Type}

/-- **A stream agrees with a plain operation.** -/
theorem agrees_with_plain (k : StreamKind σ ι) (hk : ∀ reply, k.interruptions reply = [])
    (config : StreamConfig) (calls : List Call) (consumer : Nat → List Move)
    (hc : ∀ t, ∀ m ∈ consumer t, m.isConsuming = true) :
    let plain := Operation.ofKind k.toKind
    let talk (t : Nat) : Talk σ ι :=
      Talk.after { stream := ofKind k config, waiting := calls } consumer t
    -- whenever a call has returned, the operations are the same, and so is what they answered
    (∀ t, (talk t).stream.hasReturned = true → (talk t).made <+: calls ∧
      (talk t).stream.operation = (plain.run (talk t).made).1 ∧
      Event.answers (talk t).events = plain.answers (talk t).made) ∧
    -- if no call ever finds the queue full while somebody may read, each of them returns
    ((∀ t, ((talk t).performAll (consumer t)).stream.isBlocked = false) →
      ∀ n ≤ calls.length, ∃ t, (talk t).stream.hasReturned = true ∧
        (talk t).made = calls.take n) := by
  intro plain talk
  have hsteady : (ofKind k config).Steady := ⟨rfl, hk, fun _ => rfl, fun h => by cases h⟩
  have hstart : Talk.Agrees plain { stream := ofKind k config, waiting := calls } :=
    .returned rfl rfl rfl
  refine ⟨fun t hr => ?_, fun hb n hn => ?_⟩
  · obtain ⟨hop, ha⟩ := Agrees.of_returned (hstart.after hsteady hc t) hr
    exact ⟨⟨(talk t).waiting, Talk.calls_after hsteady hc t⟩, hop, ha⟩
  · exact Talk.exists_returned hsteady hc hb rfl rfl hn

/-- The results are dropped while a reply is delivered that has more items than there is room. -/
def dropsEarly (t : Nat) : List Move :=
  if t = 0 then [.takeResults] else if t = 4 then [.dropResults 0] else []

theorem isConsuming_dropsEarly (t : Nat) : ∀ m ∈ dropsEarly t, m.isConsuming = true := by
  unfold dropsEarly
  split
  · decide
  · split <;> decide

/-- A reply of two items, and a last one. -/
def octetCalls : List Call := [.reply ⟨2, [7, 8]⟩, .reply ⟨2, [0]⟩]

/-- The calls on a stream with one place, while its results are dropped. -/
def abandonedTalk (t : Nat) : Talk ⟨Bytes, List Bytes, Unit⟩ UInt8 :=
  Talk.after { stream := ofKind octets onePlace, waiting := octetCalls } dropsEarly t

/-- There is room for the first item, and nobody waits for the second one. -/
theorem isBlocked_abandonedTalk :
    ∀ t, ((abandonedTalk t).performAll (dropsEarly t)).stream.isBlocked = false
  | 0 | 1 | 2 | 3 | 4 => rfl
  | t + 5 => Talk.isBlocked_after_of_noConsumer (Nat.le_add_left 5 t) rfl

/-- After each of the calls the stream is where the plain operation is. -/
theorem agrees_with_plain_octets :
    let plain := Operation.ofKind octets.toKind
    (abandonedTalk 6).stream.operation = (plain.run (octetCalls.take 1)).1 ∧
      Event.answers (abandonedTalk 6).events = [false] ∧
      (abandonedTalk 12).stream.operation = (plain.run octetCalls).1 ∧
      Event.answers (abandonedTalk 12).events = [false, true] ∧
      (abandonedTalk 12).stream.operation.handle.outcome = some (.ok [[7, 8], [0]]) ∧
      ∀ n ≤ 2, ∃ t, (abandonedTalk t).stream.hasReturned = true ∧
        (abandonedTalk t).made = octetCalls.take n := by
  intro plain
  obtain ⟨hagrees, hreturns⟩ := agrees_with_plain octets (fun _ => rfl) onePlace octetCalls
    dropsEarly isConsuming_dropsEarly
  obtain ⟨-, hfirst, hanswered⟩ := hagrees 6 rfl
  obtain ⟨-, hop, hfinished⟩ := hagrees 12 rfl
  have hlast : (abandonedTalk 12).stream.operation = (plain.run octetCalls).1 := hop
  refine ⟨hfirst, hanswered, hlast, hfinished, ?_, hreturns isBlocked_abandonedTalk⟩
  rw [hlast]
  rfl

end Stream

end StoreClient
