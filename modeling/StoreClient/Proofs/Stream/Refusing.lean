import StoreClient.Proofs.Payload.Truncation
import StoreClient.Proofs.Stream.Listing
import StoreClient.Proofs.Stream.Overtaking

/-!
# Replies that cannot be read

A reply that cannot be read queues nothing, and the operation fails: with the cause that the reply
was refused for, or with a failure that was reported while the reply was processed (`refused_reply`).
This is so whatever else happens to the stream meanwhile.

So it is with replies that are cut short (`truncated_replies_fail`). A fetch takes the empty payload
for the answer that there is no value; every other beginning of a reply fails it.
-/

namespace StoreClient

/-! ## Plain operations -/

/-- A reply to an operation that goes on settles the outcome as the reference says. -/
theorem Operation.outcome_receive {σ : Signature} {k : Kind σ} {calls : List Call}
    (h : ((ofKind k).run calls).1.isDone = false) (m : Message) :
    (((ofKind k).run calls).1.receive m).1.handle.outcome =
      k.settled? (k.taken calls) (.reply m) := by
  have hopen : k.decision calls = none := by
    rwa [isDone_run, Option.isSome_eq_false_iff, Option.isNone_iff_eq_none] at h
  rw [← Kind.decision_append_singleton hopen, ← outcome_run, run_append_singleton]
  rfl

namespace Stream

variable {σ : Signature} {ι : Type} {s s' : Stream σ ι} {es : List (Event σ ι)} {m : Message}
  {c : Cause}

/-! ## A reply that is refused -/

/-- The reply `m`, which is refused with the cause `c`, is being processed, or has been. -/
inductive Refusing (m : Message) (c : Cause) (s : Stream σ ι) : Prop
  | received (hd : s.delivery = some (.received m)) (hm : s.operation.examine m = .error c)
  | settling (hd : s.delivery = some (.settling m.code (.error c)))
  | settled (hd : s.delivery = none) (hp : s.operation.isDone = true)

namespace Refusing

theorem step (h : s.Refusing m c) (hs : Produces s (s', es)) : s'.Refusing m c := by
  have hexamine : s'.operation.examine m = s.operation.examine m := examine_congr hs.kind_eq m
  cases h with
  | received hd hm =>
    rw [hm] at hexamine
    cases hs with
    | still hs => exact .received (hs.delivery.trans hd) hexamine
    | fail | publish | close => exact .received hd hexamine
    | refuse hd' hm' =>
      obtain ⟨⟩ := hd'.symm.trans hd
      obtain ⟨⟩ := hm'.symm.trans hm
      exact .settling rfl
    | decode hd' hm' =>
      obtain ⟨⟩ := hd'.symm.trans hd
      obtain ⟨⟩ := hm'.symm.trans hm
    | take hd' | share hd' | push hd' | discard hd' | stall hd' | ignore hd' | reject hd'
    | accept hd' | finish hd' | drop hd' => obtain ⟨⟩ := hd'.symm.trans hd
  | settling hd =>
    cases hs with
    | still hs => exact .settling (hs.delivery.trans hd)
    | fail | publish | close => exact .settling hd
    | ignore hd' hp => exact .settled rfl hp
    | reject hd' => exact .settled rfl rfl
    | take hd' | decode hd' | refuse hd' | share hd' | push hd' | discard hd' | stall hd'
    | accept hd' | finish hd' | drop hd' => obtain ⟨⟩ := hd'.symm.trans hd
  | settled hd hp =>
    cases hs with
    | still hs => exact .settled (hs.delivery.trans hd) (hs.isDone.trans hp)
    | publish hc hop => exact .settled hd (by simpa [hop, Operation.isDone] using hp)
    | close | drop => exact .settled hd hp
    | take _ hp' => exact absurd (hp'.symm.trans hp) Bool.false_ne_true
    | fail hp' => exact absurd (hp'.symm.trans hp) Bool.false_ne_true
    | decode hd' | refuse hd' | share hd' | push hd' | discard hd' | stall hd' | ignore hd'
    | reject hd' | accept hd' | finish hd' => obtain ⟨⟩ := hd'.symm.trans hd

/-- Nothing is queued. -/
theorem queues_nothing (h : s.Refusing m c) (hs : Produces s (s', es)) :
    Event.queuedItems es = [] := by
  cases hs with
  | still _ _ hq => exact hq
  | push hd =>
    cases h with
    | received hd' | settling hd' | settled hd' => obtain ⟨⟩ := hd'.symm.trans hd
  | discard _ _ hes => exact hes.queued
  | ignore _ _ hes => exact hes.queued
  | reject _ _ hes => exact hes.queued
  | accept _ _ hes => exact hes.queued
  | finish _ _ _ hes => exact hes.queued
  | fail _ _ hes => exact hes.queued
  | publish _ _ hes => exact hes.queued
  | take | decode | refuse | share | stall | close | drop => rfl

/-- What makes the operation done is that the reply is settled, or a failure that is reported. -/
theorem decided_by (h : s.Refusing m c) (ho : s.Orderly) (hp : s.operation.isDone = false)
    {mv : Move} {o : Outcome σ.Output} (hd : (s.perform mv).1.decided? = some o) :
    o = .error c ∨ ∃ c', mv = .fail c' ∧ o = .error c' := by
  have hnext : (s.perform mv).1.operation.isDone = true := by
    rw [← (ho.perform mv).standing.decided?_isSome, hd]
    rfl
  by_cases hfail : ∃ c', mv = .fail c'
  · obtain ⟨c', rfl⟩ := hfail
    right
    by_cases hl : s.dropped = true
    · rw [perform, fail, if_pos hl, hp] at hnext
      cases hnext
    · rw [perform, fail_of_pending (Bool.eq_false_iff.2 hl) hp] at hd
      exact ⟨c', rfl, (Option.some.inj hd).symm⟩
  by_cases hsettle : mv = .settle
  · subst hsettle
    left
    cases h with
    | received hd' =>
      rw [perform, settle, hd', hp] at hnext
      cases hnext
    | settling hd' =>
      simp only [perform, settle, hd', Operation.judge_error hp] at hd
      exact (Option.some.inj hd).symm
    | settled _ hp' => exact absurd (hp.symm.trans hp') Bool.false_ne_true
  · rw [isDone_perform hsettle fun c' hc' => hfail ⟨c', hc'⟩, hp] at hnext
    cases hnext

/-- Whatever happens while a reply is refused, nothing is queued, and if the operation was made done
meanwhile, it failed. -/
theorem run (h : s.Refusing m c) (ho : s.Orderly) (moves : List Move) :
    (s.run moves).1.Refusing m c ∧ Event.queuedItems (s.run moves).2 = [] ∧
      ∀ o, (s.run moves).1.decided? = some o → s.decided? = some o ∨
        ∃ cause, o = .error cause ∧ (cause = c ∨ .fail cause ∈ moves) := by
  induction moves generalizing s with
  | nil => exact ⟨h, rfl, fun o ho => .inl ho⟩
  | cons mv moves ih =>
    have hs : Produces s (s.perform mv) := produces_perform s mv
    have hstep : (s.perform mv).1.Refusing m c := h.step hs
    have hfirst : Event.queuedItems (s.perform mv).2 = [] := h.queues_nothing hs
    obtain ⟨hlater, hqueued, hdecided⟩ := ih hstep (ho.perform mv)
    refine ⟨hlater, ?_, fun o hd => ?_⟩
    · rw [run_cons, Event.queuedItems_append, hqueued, hfirst, List.append_nil]
    rcases hdecided o hd with hnext | ⟨cause, rfl, hcause⟩
    · cases hp : s.operation.isDone with
      | true =>
        obtain ⟨o', ho'⟩ := Option.isSome_iff_exists.1 (ho.standing.decided?_isSome.trans hp)
        have hstays : (s.perform mv).1.decided? = some o' := ho.decided?_step hs ho'
        obtain rfl := Option.some.inj (hstays.symm.trans hnext)
        exact .inl ho'
      | false =>
        right
        rcases h.decided_by ho hp hnext with rfl | ⟨cause, rfl, rfl⟩
        · exact ⟨c, rfl, .inl rfl⟩
        · exact ⟨cause, rfl, .inr List.mem_cons_self⟩
    · exact .inr ⟨cause, rfl, hcause.imp_right (List.mem_cons_of_mem mv)⟩

/-- Two moves settle the reply, wherever it is. -/
theorem settles (h : s.Refusing m c) : (s.run [.examine, .settle]).1.operation.isDone = true := by
  have hsettle {t : Stream σ ι} (hd : t.delivery = some (.settling m.code (.error c))) :
      t.settle.1.operation.isDone = true := by
    cases hp : t.operation.isDone with
    | true => rw [settle_of_done hp hd, hp]
    | false =>
      simp only [settle, hd, Operation.judge_error hp]
      rfl
  cases h with
  | received hd hm =>
    have hexamine : s.examine.1.delivery = some (.settling m.code (.error c)) := by
      simp only [examine, hd, hm]
    exact hsettle hexamine
  | settling hd =>
    have hexamine : s.examine.1 = s := by simp only [examine, hd]
    rw [← hexamine] at hd
    exact hsettle hd
  | settled hd hp =>
    have hexamine : s.examine.1 = s := by simp only [examine, hd]
    have hsettle : s.settle.1 = s := by simp only [settle, hd]
    simp only [Stream.run, perform, hexamine, hsettle, hp]

end Refusing

/-- The two steps that the call which made an operation done has still to make close the queue. -/
theorem closed_finished (h : s.Standing) (hp : s.operation.isDone = true) :
    (s.run [.publish, .close]).1.closed = true := by
  cases h with
  | going _ hp' => exact absurd (hp'.symm.trans hp) Bool.false_ne_true
  | publishing hc => simp [run, perform, publish, close, hc]
  | closing hc => simp [run, perform, publish, close, hc]
  | closed hc _ _ hcl => simp [run, perform, publish, close, hc, hcl]

/-- A reply is fed and processed to its end, and other moves come meanwhile. -/
def feeding (m : Message) (moves : List Move) : List Move :=
  .take m :: (moves ++ [.examine, .settle, .publish, .close])

/-- The reply queues nothing and fails the operation, with the cause or with a failure that is
reported while it is processed. -/
structure FailsAt (s : Stream σ ι) (m : Message) (c : Cause) (moves : List Move) : Prop where
  queued : Event.queuedItems (s.run (feeding m moves)).2 = []
  closed : (s.run (feeding m moves)).1.closed = true
  outcome : ∃ cause, (s.run (feeding m moves)).1.operation.handle.outcome = some (.error cause) ∧
    (cause = c ∨ .fail cause ∈ moves)

/-- **A reply that cannot be read queues nothing and fails the operation**, whatever happens while it
is processed. -/
theorem refused_reply (ho : s.Orderly) (hd : s.delivery = none) (hp : s.operation.isDone = false)
    (hl : s.dropped = false) (hm : s.operation.examine m = .error c) (moves : List Move) :
    s.FailsAt m c moves := by
  have htake : s.perform (.take m) = ({ s with delivery := some (.received m) }, []) := by
    simp [perform, take, hd, hp, hl]
  have hreceived : (s.perform (.take m)).1.Refusing m c := by
    rw [htake]
    exact .received rfl hm
  have hpending : (s.perform (.take m)).1.decided? = none := by
    have hopen := (ho.perform (.take m)).standing.decided?_isSome
    rw [htake] at hopen ⊢
    rwa [hp, Option.isSome_eq_false_iff, Option.isNone_iff_eq_none] at hopen
  obtain ⟨-, hqueued, hdecided⟩ := hreceived.run (ho.perform (.take m))
    (moves ++ [.examine, .settle, .publish, .close])
  obtain ⟨hmeanwhile, -⟩ := hreceived.run (ho.perform (.take m)) moves
  have hrun : (s.run (feeding m moves)).1 =
      ((((s.perform (.take m)).1.run moves).1.run [.examine, .settle]).1.run
        [.publish, .close]).1 := by
    rw [feeding, run_cons, run_append]
    rfl
  have horderly : (s.run (feeding m moves)).1.Orderly := ho.run _
  have hclosed : (s.run (feeding m moves)).1.closed = true := by
    rw [hrun]
    exact closed_finished ((((ho.perform _).run moves).run _).standing) hmeanwhile.settles
  refine ⟨?_, hclosed, ?_⟩
  · rw [feeding, run_cons, Event.queuedItems_append, hqueued, htake]
    rfl
  · obtain ⟨-, -, o, houtcome⟩ := horderly.standing.of_closed hclosed
    rcases hdecided o (horderly.standing.decided?_of_outcome houtcome) with hbefore | hcause
    · rw [hpending] at hbefore
      cases hbefore
    · obtain ⟨cause, rfl, hcause⟩ := hcause
      refine ⟨cause, houtcome, hcause.imp_right fun hmem => ?_⟩
      simpa using hmem

end Stream

/-! ## Replies that are cut short -/

/-- A reply with the expected code means what is decoded of it. -/
theorem Operation.examine_of_expected {σ : Signature} {op : Operation σ} {m : Message}
    (hcode : m.code = op.kind.expects) (hne : m.code ≠ Message.errorCode) :
    op.examine m = op.kind.decode m := by
  rw [examine, Message.isErrorResponse, if_neg (by simpa using hne), if_neg (by simpa using hcode)]

/-- A reply with the expected code that cannot be decoded settles the outcome. -/
theorem Kind.settled?_of_error {σ : Signature} {k : Kind σ} {m : Message} {c : Cause}
    (hcode : m.code = k.expects) (hne : m.code ≠ 0) (h : k.decode m = .error c)
    (before : List σ.Reply) : k.settled? before (.reply m) = some (.error c) := by
  rw [settled?, ruling, if_neg hne, if_neg (not_not_intro hcode), h]

theorem exists_of_map_eq_ok {ε α β : Type} {x : Except ε α} {f : α → β} {b : β}
    (h : x.map f = .ok b) : ∃ a, x = .ok a ∧ f a = b := by
  cases x with
  | error e => cases h
  | ok a => exact ⟨a, rfl, Except.ok.inj h⟩

namespace Fetch

variable {c : Fetch} {op : Operation signature}

/-- The operation of a fetch is one of its kind. -/
theorem exists_request (h : c.command.operation = .ok op) :
    ∃ request, op = .ofKind (kind c.location request) := by
  obtain ⟨k, hk, rfl⟩ := exists_of_map_eq_ok h
  obtain ⟨request, -, rfl⟩ := exists_of_map_eq_ok hk
  exact ⟨request, rfl⟩

/-- A fetch takes the empty payload for the answer that there is no value, and is failed by every
other beginning of a reply. -/
theorem outcome_cut {r : FetchReply} (hr : r.Short) {p : Bytes}
    (hp : Payload.IsCut p r.toValue.encode) (h : c.command.operation = .ok op)
    {calls : List Call} (hopen : (op.run calls).1.isDone = false) :
    ∃ o, ((op.run calls).1.receive ⟨Code.fetched, p⟩).1.handle.outcome = some o ∧
      (p = [] ∧ o = .ok { value := none, vclock := none } ∨
        p ≠ [] ∧ ∃ reason, o = .error (.decode Code.fetched reason)) := by
  obtain ⟨request, rfl⟩ := exists_request h
  rw [Operation.outcome_receive hopen]
  by_cases hnil : p = []
  · subst hnil
    refine ⟨_, ?_, .inl ⟨rfl, rfl⟩⟩
    have hlast (before : List FetchReply) :
        (kind c.location request).settled? before (.reply ⟨Code.fetched, []⟩) =
          some (.ok ((before ++ [FetchReply.notFound]).getLast?.getD .notFound)) := rfl
    rw [hlast, List.getLast?_concat]
    rfl
  · obtain ⟨reason, hreason⟩ :=
      Payload.decode_cut FetchReply.record_refuses (r.fits hr _) hp Code.fetched
    have hdecode : decode ⟨Code.fetched, p⟩ = .error (.decode Code.fetched reason) := by
      rw [decode, if_neg (by simpa using hnil), hreason]
    have hcode : Code.fetched ≠ 0 := by decide
    exact ⟨_, Kind.settled?_of_error rfl hcode hdecode _, .inr ⟨hnil, reason, rfl⟩⟩

end Fetch

namespace ListKeys

variable {c : ListKeys}

theorem exists_request {op : Operation signature} (h : c.command.operation = .ok op) :
    ∃ request, op = .ofKind (kind c.within request).toKind := by
  obtain ⟨k, hk, rfl⟩ := exists_of_map_eq_ok h
  obtain ⟨streamed, hstreamed, rfl⟩ := exists_of_map_eq_ok hk
  obtain ⟨request, -, rfl⟩ := exists_of_map_eq_ok hstreamed
  exact ⟨request, rfl⟩

theorem exists_request_of_stream {config : StreamConfig} {s : Stream signature Location}
    (h : c.stream config = .ok s) : ∃ request, s = .ofKind (kind c.within request) config := by
  have hmake : c.stream config = Stream.make (c.request.map (kind c.within)) config := rfl
  rw [hmake] at h
  cases hrequest : c.request with
  | error e =>
    rw [hrequest] at h
    cases h
  | ok request =>
    rw [hrequest] at h
    exact ⟨request, (Stream.make_eq_ok_iff.1 h).2.2⟩

/-- A part that is cut short is no part. -/
theorem decode_cut {r : ListKeysReply} (hr : r.Short) {p : Bytes}
    (hp : Payload.IsCut p r.toValue.encode) : ∃ reason,
      decode ⟨Code.keysListed, p⟩ = .error (.decode Code.keysListed reason) := by
  obtain ⟨reason, hreason⟩ :=
    Payload.decode_cut ListKeysReply.record_refuses (r.fits hr _) hp Code.keysListed
  exact ⟨reason, by rw [decode, hreason]; rfl⟩

end ListKeys

/-- **A reply that is cut short is never taken for a reply.** -/
theorem truncated_replies_fail :
    (∀ r : FetchReply, r.Short → ∀ m, r.toMessage = .ok m → ∀ p, Payload.IsCut p m.payload →
      (∀ code, Payload.Refuses FetchReply.record.read ⟨code, p⟩) ∧
      ∀ c : Fetch, ∀ op calls, c.command.operation = .ok op → (op.run calls).1.isDone = false →
        ∃ o, ((op.run calls).1.receive ⟨Code.fetched, p⟩).1.handle.outcome = some o ∧
          (p = [] ∧ o = .ok { value := none, vclock := none } ∨
            p ≠ [] ∧ ∃ reason, o = .error (.decode Code.fetched reason))) ∧
    ∀ r : ListKeysReply, r.Short → ∀ m, r.toMessage = .ok m → ∀ p, Payload.IsCut p m.payload →
      (∀ code, Payload.Refuses ListKeysReply.record.read ⟨code, p⟩) ∧
      ∃ reason,
        (∀ c : ListKeys, ∀ op calls, c.command.operation = .ok op →
          (op.run calls).1.isDone = false →
          ((op.run calls).1.receive ⟨Code.keysListed, p⟩).1.handle.outcome =
            some (.error (.decode Code.keysListed reason))) ∧
        ∀ c : ListKeys, ∀ config s before, c.stream config = .ok s →
          (s.run before).1.delivery = none → (s.run before).1.operation.isDone = false →
          (s.run before).1.dropped = false →
          ∀ moves, (s.run before).1.FailsAt ⟨Code.keysListed, p⟩
            (.decode Code.keysListed reason) moves := by
  constructor
  · rintro r hr m ⟨⟩ p hp
    refine ⟨Payload.decode_cut FetchReply.record_refuses (r.fits hr _) hp, ?_⟩
    intro c op calls hop hopen
    exact Fetch.outcome_cut hr hp hop hopen
  · rintro r hr m ⟨⟩ p hp
    refine ⟨Payload.decode_cut ListKeysReply.record_refuses (r.fits hr _) hp, ?_⟩
    obtain ⟨reason, hdecode⟩ := ListKeys.decode_cut hr hp
    have hcode : Code.keysListed ≠ 0 := by decide
    refine ⟨reason, ?_, ?_⟩
    · intro c op calls hop hopen
      obtain ⟨request, rfl⟩ := ListKeys.exists_request hop
      rw [Operation.outcome_receive hopen]
      exact Kind.settled?_of_error rfl hcode hdecode _
    · intro c config s before hs hdelivery hopen hthere moves
      obtain ⟨request, rfl⟩ := ListKeys.exists_request_of_stream hs
      refine Stream.refused_reply ((Stream.orderly_ofKind _ config).run before) hdelivery hopen
        hthere ?_ moves
      have hkind := Stream.kind_run (.ofKind (ListKeys.kind c.within request) config) before
      rw [Operation.examine_of_expected (by rw [hkind]; rfl) hcode, hkind]
      exact hdecode

/-! ## Cuts within a length and between keys -/

theorem Payload.isCut_take {payload : Bytes} {n : Nat} (h : n < payload.length) :
    IsCut (payload.take n) payload where
  begins := List.take_prefix n payload
  shorter heq := by
    have hlength := congrArg List.length heq
    rw [List.length_take] at hlength
    omega

def fetchInParis : Fetch := { location := ⟨⟨"maps", "paris"⟩, "a"⟩ }

/-- A reply with a value, of which the header is cut off. -/
def fetchCut : Bytes := (FetchReply.found [0x68, 0x69]).toValue.encode.take 8

/-- A part with two keys, of which the second is cut off. -/
def listingCut : Bytes := (ListKeysReply.toValue ⟨[[0x61], [0x62]], true⟩).encode.take 10

theorem truncated_replies_fail_paris : ∃ op listing s,
    fetchInParis.command.operation = .ok op ∧ ListKeys.paris.command.operation = .ok listing ∧
    ListKeys.paris.stream {} = .ok s ∧
    (∃ reason, ((op.run [.submit]).1.receive ⟨10, fetchCut⟩).1.handle.outcome =
      some (.error (.decode 10 reason))) ∧
    ((op.run [.submit]).1.receive ⟨10, []⟩).1.handle.outcome =
      some (.ok { value := none, vclock := none }) ∧
    ∃ reason, ((listing.run []).1.receive ⟨18, listingCut⟩).1.handle.outcome =
        some (.error (.decode 18 reason)) ∧
      (s.run [.takeResults, .submit]).1.FailsAt ⟨18, listingCut⟩ (.decode 18 reason)
        [.claim 0, .read .hasNext] := by
  obtain ⟨hfetch, hlisting⟩ := truncated_replies_fail
  have hfound : (FetchReply.found [0x68, 0x69]).Short := by
    simp [FetchReply.Short, FetchReply.found, UInt32.size]
  have hpart : (⟨[[0x61], [0x62]], true⟩ : ListKeysReply).Short := by
    simp [ListKeysReply.Short, UInt32.size]
  obtain ⟨-, hcut⟩ := hfetch _ hfound _ rfl fetchCut (Payload.isCut_take (by decide))
  obtain ⟨-, hempty⟩ := hfetch _ hfound _ rfl [] (Payload.isCut_take (n := 0) (by decide))
  obtain ⟨-, reason, hplain, hstream⟩ :=
    hlisting _ hpart _ rfl listingCut (Payload.isCut_take (by decide))
  refine ⟨_, _, _, rfl, rfl, rfl, ?_, ?_, reason, ?_, ?_⟩
  · obtain ⟨o, ho, ⟨hnil, -⟩ | ⟨-, reason, rfl⟩⟩ := hcut fetchInParis _ [.submit] rfl rfl
    · exact absurd hnil (by decide)
    · exact ⟨reason, ho⟩
  · obtain ⟨o, ho, ⟨-, rfl⟩ | ⟨hne, -⟩⟩ := hempty fetchInParis _ [.submit] rfl rfl
    · exact ho
    · exact absurd rfl hne
  · exact hplain ListKeys.paris _ [] rfl rfl
  · exact hstream ListKeys.paris {} _ _ rfl rfl rfl rfl _

end StoreClient
