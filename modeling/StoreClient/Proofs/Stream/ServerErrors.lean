import StoreClient.Proofs.Stream.Refusing
import StoreClient.Proofs.Stream.Stalling
import StoreClient.Proofs.Text.Lossy

/-!
# Errors that the store answers with

The payload of an error response is a text, and the operation fails with it, whatever code it
expects and whatever it was answered before. Octets that are no text are read with replacement
characters, so an error response is never one that cannot be read.

A stream fails with it as well, also beside a reply that waits for room (`FailsWith`), and whatever
happens while the response is processed (`FailsAt`). The items of the replies before stay readable,
and the reader is told of the failure after them.
-/

namespace StoreClient

/-! ## Error responses -/

/-- An error response is read as its text, by operations of any kind. -/
theorem Operation.examine_errorResponse {σ : Signature} (op : Operation σ) {m : Message}
    (hm : m.isErrorResponse = true) : op.examine m = .error (.server m.errorText) := by
  rw [examine, if_pos hm]

/-- A reply that is refused fails an operation that goes on, and all that listen hear of it. -/
theorem Operation.receive_of_refused {σ : Signature} {k : Kind σ} {calls : List Call}
    (hp : ((ofKind k).run calls).1.isDone = false) {m : Message} {c : Cause}
    (hm : ((ofKind k).run calls).1.examine m = .error c) :
    let op := ((ofKind k).run calls).1
    op.receive m = ({ op with phase := .done false, handle := ⟨some (.error c), []⟩ }, .completed,
      .logged (.operationFailed m.code c) ::
        Notice.ofListeners op.handle.listeners false) := by
  intro op
  have hopen : op.handle.outcome = none := by
    rcases decided_or_undecided k calls with ⟨o, ho⟩ | hu
    · rw [isDone, ho.phase] at hp
      cases hp
    · exact hu.outcome
  rw [receive, if_neg (Bool.eq_false_iff.1 hp), hm, settle_error hp hopen]

namespace Stream

variable {σ : Signature} {ι : Type} {s : Stream σ ι} {es : List (Event σ ι)} {m : Message}
  {c : Cause}

/-! ## A refused reply, by itself -/

/-- What is told of a reply that fails the stream with the cause. -/
def refusedWith (s : Stream σ ι) (code : UInt8) (c : Cause) : List (Event σ ι) :=
  .noticed (.logged (.operationFailed code c)) :: .accepted .completed ::
    (Notice.ofListeners s.operation.handle.listeners false).map .noticed

/-- A reply that is refused fails the stream, if nothing comes between. -/
theorem receive_of_refused (hq : s.IsQuiet) (hd : s.delivery = none)
    (hp : s.operation.isDone = false) (ho : s.operation.handle.outcome = none)
    (hm : s.operation.examine m = .error c) :
    s.receive m = (s.failed c, s.refusedWith m.code c) := by
  let received := s.delivering (.received m)
  let settling := s.delivering (.settling m.code (.error c))
  let settled : Stream σ ι := { s with
    operation := { s.operation with phase := .done false }
    delivery := none
    completion := some (.publishing (.error c)) }
  have hdone : (s.failed c).delivery = none := hd
  have htake : s.take m = (received, []) := by
    unfold take
    rw [if_neg (by simp [hq.dropped, hd]), if_neg (by simp [hp])]
    rfl
  have hexamine : received.run [.examine] = (settling, []) := by
    simp [run, perform, examine, received, delivering, hm, settling]
  have hsettle : settling.settle = (settled,
      [.noticed (.logged (.operationFailed m.code c)), .accepted .completed]) :=
    settle_of_judge (s := settling) rfl hq.completion (Operation.judge_error hp m.code c)
  have hpublish : settled.operation.publish (.error c) = ((s.failed c).operation,
      Notice.ofListeners s.operation.handle.listeners false) :=
    Operation.publish_of_pending (show settled.operation.handle.outcome = none from ho) (.error c)
  have hend : settling.run [.settle, .publish, .close] =
      (s.failed c, s.refusedWith m.code c) := by
    simp only [run, perform, hsettle, publish, close, settled, hpublish, List.append_nil]
    rw [← hq.completion, ← hd]
    rfl
  have hfollow : received.follow 4 = (s.failed c, s.refusedWith m.code c) := by
    rw [follow_of_run hexamine, follow_of_run hend, follow_of_none hdone, List.nil_append,
      List.append_nil]
  simp only [receive, start, perform, htake, hfollow, giveUp_of_none hdone, List.nil_append,
    List.append_nil]

/-- What is told of it is about no items. -/
theorem silent_refusedWith (s : Stream σ ι) (code : UInt8) (c : Cause) :
    Event.Silent (s.refusedWith code c) where
  replies := (Event.silent_noticed _).replies
  queued := (Event.silent_noticed _).queued
  reports := (Event.silent_noticed _).reports
  claims := (Event.silent_noticed _).claims

/-! ## The items of the replies before -/

/-- What a reader of a stream that failed reports are the items that were queued, and then the
failure. -/
theorem EndedWith.yields (h : s.EndedWith c es) :
    Yields (Event.queuedItems es) (some c) (Event.reports es) := by
  cases h.tells with
  | items hr =>
    left
    rw [hr]
    exact h.conveys.handed_prefix.map _
  | ending n ho hr =>
    right
    rw [h.endCause?, ho.all] at hr
    exact ⟨n, hr⟩

/-- Between two replies, all items of the replies that were taken are queued, if there is someone to
read them. -/
theorem Sound.queued_eq (h : s.Sound es) (hp : s.operation.isDone = false)
    (hd : s.delivery = none) (hc : s.hasConsumer = true) :
    Event.queuedItems es = s.operation.replies.flatMap s.items := by
  have hrefused : ¬ s.IsRefused := by
    rintro ⟨code, c, hd'⟩
    cases hd.symm.trans hd'
  have hpast : ¬ s.IsPast := fun hpast =>
    absurd ((hpast.of_pending hp hrefused).symm.trans hc) Bool.false_ne_true
  have hrest : s.rest = [] := by simp [rest, hd]
  have hcurrent : s.current = [] := by simp [current, hd]
  have hqueued := h.queues.queued_eq hpast
  have hreplies := (h.collects.resolve_left (Bool.eq_false_iff.1 hp)).resolve_left hrefused
  rwa [hrest, List.append_nil, itemsOf, hreplies, hcurrent, List.append_nil] at hqueued

/-! ## Streams that fail -/

/-- What a call comes to by which a stream fails, when the events were seen before. -/
structure FailsIn (s : Stream σ ι) (es : List (Event σ ι)) (code : UInt8) (c : Cause)
    (y : Session σ ι × Answer σ ι × List (Event σ ι)) : Prop where
  answer : y.2.1 = .flag true
  stream : y.1.stream = s.failed c
  told : y.2.2 = s.refusedWith code c
  /-- Whatever happens then, the handle and the replies stay. -/
  remains : ∀ later, y.1.stream.RemainsFailed c (es ++ y.2.2) (y.1.stream.run later)
  /-- What is ready or queued is read from then on, and then the failure. -/
  drains : s.claim ≠ .released → y.1.stream.Drains c
  /-- A reader reports all items that were queued from the start, and then the failure. -/
  yields : ∀ later, Yields (Event.queuedItems (es ++ y.2.2 ++ (y.1.stream.run later).2)) (some c)
    (Event.reports (es ++ y.2.2 ++ (y.1.stream.run later).2))
  /-- Unless another reply is being processed, these are the items of the replies before. -/
  queued : s.delivery = none → s.hasConsumer = true → ∀ later,
    Event.queuedItems (es ++ y.2.2 ++ (y.1.stream.run later).2) =
      s.operation.replies.flatMap s.items

/-- A reply that is refused in a session fails its stream. -/
theorem Sound.failsIn (h : s.Sound es) (hp : s.operation.isDone = false) (hl : s.dropped = false)
    (hm : s.operation.examine m = .error c) (x : Session σ ι) (hx : x.stream = s) :
    s.FailsIn es m.code c (x.receive m) := by
  have hquiet := h.orderly.isQuiet hp hl
  obtain ⟨-, hout, -⟩ := h.orderly.standing.of_pending hp
  have hsilent := silent_refusedWith s m.code c
  have halone := receive_of_refused (s := { s with delivery := none })
    ⟨hquiet.completion, hl⟩ rfl hp hout hm
  have hanswer : (Event.answers (s.refusedWith m.code c)).any id = true := rfl
  have hreceive : x.receive m = ({ x with stream := s.failed c }, .flag true,
      s.refusedWith m.code c) := session_receive_of_failed x hx halone hanswer
  have hended : (s.failed c).EndedWith c (es ++ s.refusedWith m.code c) :=
    h.endedWith_failed hquiet hp hsilent.queued hsilent.reports hsilent.claims c
  obtain ⟨hreports, -⟩ := h.reports_of_pending hp hl
  rw [hreceive]
  refine ⟨rfl, rfl, rfl, hended.remainsFailed, ?_, fun later => (hended.run later).yields, ?_⟩
  · intro hclaim
    refine hended.drains ?_ hclaim
    have hhanded : Event.handed (s.refusedWith m.code c) = [] := by
      rw [Event.handed, hsilent.reports]
      rfl
    rw [Event.reports_append, Event.handed_append, hsilent.reports, hreports, hhanded,
      List.append_nil, List.append_nil]
  · intro hd hc later
    have hnone : (s.failed c).waitingItems = [] := by
      show s.waitingItems = []
      rw [waitingItems, hd]
    have hlater : Event.queuedItems ((s.failed c).run later).2 = [] := by
      have hprefix := queued_run_of_closed (s := s.failed c) rfl later
      rwa [hnone, List.prefix_nil] at hprefix
    rw [Event.queuedItems_append, Event.queuedItems_append, hsilent.queued, hlater,
      List.append_nil, List.append_nil]
    exact h.queued_eq hp hd hc

end Stream

/-- **An error response arrives with its text.** -/
theorem error_response_arrives :
    -- the text
    (∀ text, (Message.errorResponse text).isErrorResponse = true ∧
      (Message.errorResponse text).errorText = text) ∧
    (∀ m : Message, (Utf8.IsText m.payload → Utf8.encode m.errorText = m.payload) ∧
      (¬ Utf8.IsText m.payload →
        '\uFFFD' ∈ m.errorText.toList ∧ Utf8.encode m.errorText ≠ m.payload)) ∧
    -- an operation, after any calls
    (∀ {σ : Signature} (k : Kind σ) (calls : List Call) (m : Message),
      let op := ((Operation.ofKind k).run calls).1
      op.isDone = false → m.isErrorResponse = true →
        let c := Cause.server m.errorText
        op.receive m = ({ op with phase := .done false, handle := ⟨some (.error c), []⟩ },
          .completed, .logged (.operationFailed m.code c) ::
            Notice.ofListeners op.handle.listeners false)) ∧
    -- a stream, after any moves
    ∀ {σ : Signature} {ι : Type} (k : StreamKind σ ι) (config : StreamConfig)
      (moves : List Stream.Move) (m : Message),
      let s := ((Stream.ofKind k config).run moves).1
      let es := ((Stream.ofKind k config).run moves).2
      s.operation.isDone = false → s.dropped = false → m.isErrorResponse = true →
        let c := Cause.server m.errorText
        s.items = k.items ∧
        (∀ x : Stream.Session σ ι, x.stream = s → s.FailsIn es m.code c (x.receive m)) ∧
        (s.delivery = none → ∀ meanwhile, s.FailsAt m c meanwhile) := by
  refine ⟨fun text => ⟨rfl, Utf8.decodeLossy_encode text⟩,
    fun m => ⟨Utf8.encode_decodeLossy, Utf8.decodeLossy_of_not_isText⟩, ?_, ?_⟩
  · intro σ k calls m op hp hm c
    exact Operation.receive_of_refused hp (op.examine_errorResponse hm)
  · intro σ ι k config moves m s es hp hl hm c
    have hsound : s.Sound es := (Stream.sound_ofKind k config).run moves
    have hrefused : s.operation.examine m = .error c := s.operation.examine_errorResponse hm
    refine ⟨Stream.items_run _ moves, ?_, ?_⟩
    · intro x hx
      exact hsound.failsIn hp hl hrefused x hx
    · intro hd meanwhile
      exact Stream.refused_reply hsound.orderly hd hp hl hrefused meanwhile

/-! ## Octets -/

/-- A reply with two items that others follow. -/
def oneReply : List Stream.Move :=
  [.takeResults, .submit, .take ⟨2, [7, 8]⟩, .examine, .share, .push, .push, .settle]

/-- An octet that no character has. -/
theorem not_isText_illFormed : ¬ Utf8.IsText [0xFF] := by
  rintro ⟨text, htext⟩
  have hsegments : Utf8.segments [0xFF] = [.illFormed 1] := by
    rw [Utf8.segments_cons, show Utf8.next 0xFF [] = (.illFormed 1, []) from rfl,
      Utf8.segments_nil]
  have hread := Utf8.decode_encode text
  rw [htext, Utf8.decode, hsegments] at hread
  cases hread

theorem error_response_arrives_octets :
    let m := Message.errorResponse "disk full: 💾"
    let op := ((Operation.ofKind Stream.octets.toKind).run [.reply ⟨2, [7, 8]⟩]).1
    let x : Stream.Session _ _ := { stream := ((Stream.ofKind Stream.octets {}).run oneReply).1 }
    (op.receive m).1.handle.outcome = some (.error (.server "disk full: 💾")) ∧
    (∃ text, '\uFFFD' ∈ text.toList ∧
      (op.receive ⟨0, [0xFF]⟩).1.handle.outcome = some (.error (.server text))) ∧
    (x.receive m).2.1 = .flag true ∧
    ∃ j, Stream.Event.reports ((x.receive m).1.stream.run
        [.claim 0, .read .next, .read .next, .read .next]).2 =
      [.item 7, .item 8] ++ Stream.ending (some (.server "disk full: 💾")) j := by
  intro m op x
  obtain ⟨htexts, hothers, hoperations, hstreams⟩ := error_response_arrives
  obtain ⟨hm, htext⟩ := htexts "disk full: 💾"
  obtain ⟨-, hin, -⟩ := hstreams Stream.octets {} oneReply m rfl rfl hm
  have hfails := hin x rfl
  refine ⟨?_, ⟨_, ((hothers ⟨0, [0xFF]⟩).2 not_isText_illFormed).1, ?_⟩, hfails.answer, ?_⟩
  · rw [hoperations Stream.octets.toKind [.reply ⟨2, [7, 8]⟩] m rfl hm, htext]
  · rw [hoperations Stream.octets.toKind [.reply ⟨2, [7, 8]⟩] ⟨0, [0xFF]⟩ rfl rfl]
  · have hreads := (hfails.drains nofun).reads (by rw [hfails.stream]; rfl) [.claim 0] _
      (by rw [hfails.stream]; rfl) 3 (by rw [hfails.stream]; decide)
    rw [hfails.stream, htext] at hreads ⊢
    exact hreads

end StoreClient
