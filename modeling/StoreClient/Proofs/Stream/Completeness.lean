import StoreClient.Proofs.Stream.Liveness

/-!
# Completeness of streams

`stream_is_faithful` is about any kind of stream, any configuration, and any moves whatever: replies
that are fed one at a time, failures and the dropping of the operation at any point, also between
the decoding of a reply and the queueing of its items, and calls of the reader. What the reader
reports is `Faithful`: no item is lost or repeated, and a stream that failed does not look like one
that ended. In a run that is fair to the reader, it reports the end some time.
-/

namespace StoreClient.Stream

variable {σ : Signature} {ι : Type} {s : Stream σ ι} {es : List (Event σ ι)}

/-- The stream ends with a failure: that of its operation, or that it was dropped before it was
done. -/
def FailsWith (s : Stream σ ι) (c : Cause) : Prop :=
  s.operation.handle.outcome = some (.error c) ∨
    s.operation.handle.outcome = none ∧ s.dropped = true ∧
      c = .transport "operation dropped before completion"

/-- What is true of what a reader reports. -/
structure Faithful (k : StreamKind σ ι) (s : Stream σ ι) (es : List (Event σ ι)) : Prop where
  one_reader : Event.claims es ≤ 1
  handed_prefix : Event.handed es <+: (Event.replies es).flatMap k.items
  /-- Nothing but items is reported of a stream that goes on. -/
  pending : s.operation.handle.outcome = none → s.dropped = false →
    Event.reports es = (Event.handed es).map .item
  success : ∀ v, s.operation.handle.outcome = some (.ok v) →
    k.convert (Event.replies es) = .ok v ∧
    (∀ r, s.claim = .reading r →
      Event.handed es ++ r.peeked.toList ++ s.queue = (Event.replies es).flatMap k.items) ∧
    ∃ n, Event.reports es = (Event.handed es).map .item ++ List.replicate n .ended ∧
      (0 < n → Event.handed es = (Event.replies es).flatMap k.items)
  failure : ∀ c, s.FailsWith c →
    Event.reports es = (Event.handed es).map .item ∨
      Event.handed es = Event.queuedItems es ∧
        ∃ n, Event.reports es =
          (Event.handed es).map .item ++ .failure c :: List.replicate n .ended
  /-- After a failure or the end, there is nothing but the end. -/
  after_end : ∀ x ∈ Event.reports es, x.item? = none → ∀ r, s.claim = .reading r →
    ∀ what, what = .hasNext ∨ what = .next →
      Event.reports (s.perform (.read what)).2 = [.ended]

/-- The failure of a stream is what its reader reports at the end. -/
theorem endCause?_of_failsWith {c : Cause} (h : s.FailsWith c) : s.endCause? = some c := by
  rcases h with ho | ⟨ho, -, rfl⟩
  · simp [endCause?, Handle.isDone, Handle.cause?, ho]
  · simp [endCause?, Handle.isDone, ho]

theorem endCause?_of_success {v : σ.Output} (h : s.operation.handle.outcome = some (.ok v)) :
    s.endCause? = none := by
  simp [endCause?, Handle.isDone, Handle.cause?, h]

/-- A stream that is over goes on to report the end. -/
theorem IsOver.reports_ended (h : s.IsOver es) {r : Reader ι} (hc : s.claim = .reading r)
    {what : Reading} (hw : what = .hasNext ∨ what = .next) :
    Event.reports (s.perform (.read what)).2 = [.ended] := by
  have hl := looks_hasNext s r
  obtain ⟨hpeek, hqueue⟩ := h.nothing_left hc
  have hfinish : s.hasNext r = (s, r, .ok false) := by
    generalize s.hasNext r = x at hl
    cases hl with
    | peeked hp =>
      rw [hpeek] at hp
      cases hp
    | fetch _ hq =>
      rw [hqueue] at hq
      cases hq
    | wait _ _ hs => exact absurd (h.noProducer.symm.trans hs) Bool.false_ne_true
    | fail _ _ _ hf hcause =>
      have := h.reported r hc
      simp [hf, hcause] at this
    | finish => rfl
  rcases hw with rfl | rfl
  · simp [perform, read, hc, ask, hfinish, Event.report?]
  · simp [perform, read, hc, ask, Stream.next, hfinish, Event.report?]

theorem Sound.faithful (h : s.Sound es) {k : StreamKind σ ι} (hi : s.items = k.items)
    (hk : s.operation.kind = k.toKind) : Faithful k s es := by
  have hall : s.itemsOf es = (Event.replies es).flatMap k.items := by rw [itemsOf, hi]
  constructor
  · exact h.conveys.claims_le
  · rw [← hall]
    exact h.conveys.handed_prefix.trans h.queues.queued_prefix
  · intro hout hl
    cases h.tells with
    | items hr => exact hr
    | ending n ho =>
      have hnone := ho.noProducer
      have hcl : s.closed = false := by
        refine Bool.eq_false_iff.2 fun hcl => ?_
        obtain ⟨-, -, o, ho'⟩ := h.orderly.standing.of_closed hcl
        rw [hout] at ho'
        cases ho'
      simp [hasProducer, hcl, hl] at hnone
  · intro v hout
    obtain ⟨-, hconv, hqueued⟩ := h.succeeds v (h.orderly.standing.decided?_of_outcome hout)
    refine ⟨by rw [← hconv, hk], fun r hc => ?_, ?_⟩
    · have hkept := h.conveys.kept (by simp [hc])
      rw [Conveys.peeked_reading hc] at hkept
      rw [← hkept, hqueued.resolve_right (by simp [hasConsumer, hc]), hall]
    · cases h.tells with
      | items hr => exact ⟨0, by simp [hr], fun hn => absurd hn (Nat.lt_irrefl 0)⟩
      | ending n ho hr =>
        rw [endCause?_of_success hout] at hr
        exact ⟨n + 1, hr, fun _ => (ho.success v hout).trans hall⟩
  · intro c hc
    cases h.tells with
    | items hr => exact .inl hr
    | ending n ho hr =>
      rw [endCause?_of_failsWith hc] at hr
      exact .inr ⟨ho.all, n, hr⟩
  · intro x hx hitem r hc what hw
    cases h.tells with
    | items hr =>
      rw [hr] at hx
      obtain ⟨i, -, rfl⟩ := List.mem_map.1 hx
      cases hitem
    | ending n ho => exact ho.reports_ended hc hw

/-- **Completeness of streams.** -/
theorem stream_is_faithful (k : StreamKind σ ι) (config : StreamConfig) :
    let s := ofKind k config
    (∀ moves : List Move, Faithful k (s.run moves).1 (s.run moves).2) ∧
    (∀ moves : Nat → Move, s.IsFair moves →
      (∃ t, (s.after moves t).operation.handle.isDone = true ∨ (s.after moves t).dropped = true) →
      (∃ t r, (s.after moves t).claim = .reading r) →
      ∃ t, .ended ∈ Event.reports (s.history moves t)) := by
  intro s
  have hsound := sound_ofKind k config
  refine ⟨fun moves => ?_, fun moves hfair ⟨t, ht⟩ ⟨t', r, ht'⟩ => ?_⟩
  · have hrun := hsound.run moves
    rw [List.nil_append] at hrun
    exact hrun.faithful (items_run s moves) (kind_run s moves)
  · refine exists_ended hsound hfair (ht.imp_left fun hd => ?_) ht'
    obtain ⟨o, ho⟩ := Option.isSome_iff_exists.1 hd
    have hord : (s.after moves t).Orderly := (hsound.run _).orderly
    rw [← hord.standing.decided?_isSome, hord.standing.decided?_of_outcome ho]
    rfl

/-! ## A stream of octets -/

/-- Replies are octets, which are the items, and a reply with a zero is the last one. -/
def octets : StreamKind ⟨Bytes, List Bytes, Unit⟩ UInt8 where
  query := ()
  request := .empty 1
  expects := 2
  decode m := .ok m.payload
  isFinal reply := reply.contains 0
  convert replies := .ok replies
  items reply := reply.filter (· ≠ 0)
  itemOctets := 1

/-- A queue with one place. -/
def onePlace : StreamConfig := { queueCapacity := 1 }

/-- Two replies of two items and one are read while they arrive. -/
def octetScript : List Move :=
  [.takeResults, .claim 0, .take ⟨2, [7, 8]⟩, .examine, .share, .push, .push, .read .next, .push,
    .settle, .take ⟨2, [9, 0]⟩, .read .hasNext, .examine, .share, .push, .read .nextItem, .settle,
    .publish, .read .next, .close, .read .next]

def octetMoves (t : Nat) : Move := octetScript.getD t (.read .next)

/-- The stream when the script has been gone through. -/
def readOut : Stream ⟨Bytes, List Bytes, Unit⟩ UInt8 := ((ofKind octets onePlace).run octetScript).1

example : Event.reports ((ofKind octets onePlace).run octetScript).2 =
    [.item 7, .item 8, .item 9, .ended] := by decide

/-- A failure within a reply: what was queued is read, and then the failure is reported. -/
example : Event.reports ((ofKind octets onePlace).run
    [.takeResults, .claim 0, .take ⟨2, [7, 8]⟩, .examine, .share, .push, .fail (.transport "lost"),
      .publish, .close, .discard, .settle, .read .next, .read .next, .read .next]).2 =
    [.item 7, .failure (.transport "lost"), .ended] := by decide

/-- Nothing changes after the script. -/
theorem after_octetMoves (n : Nat) :
    (ofKind octets onePlace).after octetMoves (octetScript.length + n) = readOut := by
  induction n with
  | zero => rfl
  | succ n ih =>
    have hlast : octetMoves (octetScript.length + n) = .read .next := by
      unfold octetMoves
      rw [List.getD_eq_getElem?_getD, List.getElem?_eq_none (Nat.le_add_right _ n)]
      rfl
    rw [← Nat.add_assoc, after_succ, ih, hlast]
    rfl

theorem isFair_octetMoves : (ofKind octets onePlace).IsFair octetMoves where
  calls t h := by
    have := h (octetScript.length + t) (Nat.le_add_left t _)
    rw [after_octetMoves] at this
    exact absurd this (by decide)
  reads t := by
    refine ⟨octetScript.length + t, Nat.le_add_left t _, ?_⟩
    unfold octetMoves
    rw [List.getD_eq_getElem?_getD, List.getElem?_eq_none (Nat.le_add_right _ t)]
    rfl
  keeps t := by
    have hscript : ∀ u < octetScript.length,
        (((ofKind octets onePlace).after octetMoves u).claim matches .released) = false := by decide
    intro hc
    rcases Nat.lt_or_ge t octetScript.length with hlt | hge
    · have := hscript t hlt
      rw [hc] at this
      cases this
    · obtain ⟨n, rfl⟩ := Nat.exists_eq_add_of_le hge
      rw [after_octetMoves] at hc
      cases hc

theorem stream_is_faithful_octets :
    ∃ t, .ended ∈ Event.reports ((ofKind octets onePlace).history octetMoves t) :=
  (stream_is_faithful octets onePlace).2 octetMoves isFair_octetMoves
    ⟨octetScript.length + 0, .inl (by rw [after_octetMoves]; rfl)⟩
    ⟨octetScript.length + 0, _, by rw [after_octetMoves]; rfl⟩

end StoreClient.Stream
