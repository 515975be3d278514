import StoreClient.Proofs.Stream.Order

/-!
# Deliveries

The items of the replies that were decoded are queued in the order in which the replies arrived
(`Queues`). What was queued, and what the delivery still has to queue, is all of them; only a stream
that nobody reads, or that takes no more replies, may have given some up (`IsPast`). The operation
takes the same replies (`Collects`), so one that succeeded has a value made of all of them, and all
their items were queued (`Succeeds`).
-/

namespace StoreClient.Stream

variable {σ : Signature} {ι : Type} {s s' : Stream σ ι} {es fs : List (Event σ ι)}

/-- The items that the delivery has still to queue. -/
def rest (s : Stream σ ι) : List ι :=
  match s.delivery with
  | some (.decoded _ reply) => s.items reply
  | some (.queueing _ _ rest) => rest
  | _ => []

/-- The reply that was decoded and not yet settled. -/
def current (s : Stream σ ι) : List σ.Reply :=
  match s.delivery with
  | some (.decoded _ reply) => [reply]
  | some (.queueing _ reply _) => [reply]
  | some (.settling _ (.ok reply)) => [reply]
  | _ => []

/-- The items of the replies that were decoded. -/
def itemsOf (s : Stream σ ι) (es : List (Event σ ι)) : List ι := (Event.replies es).flatMap s.items

/-- The operation fails with what became of a reply. -/
def IsRefused (s : Stream σ ι) : Prop :=
  ∃ code c, s.delivery = some (.settling code (.error c))

/-- Nobody will read any more items, or no more replies will be taken. -/
def IsPast (s : Stream σ ι) : Prop :=
  s.hasConsumer = false ∨ s.IsRefused ∨ s.operation.isDone = true ∧
    (s.delivery = none ∨ ∃ code step, s.delivery = some (.settling code step))

theorem rest_ofRest {code : UInt8} {reply : σ.Reply} {xs : List ι}
    (hd : s.delivery = some (.ofRest code reply xs)) : s.rest = xs := by
  unfold rest
  rw [hd]
  cases xs <;> rfl

theorem current_ofRest {code : UInt8} {reply : σ.Reply} {xs : List ι}
    (hd : s.delivery = some (.ofRest code reply xs)) : s.current = [reply] := by
  unfold current
  rw [hd]
  cases xs <;> rfl

/-- A delivery that goes on is not refused. -/
theorem not_isRefused {d : Delivery σ ι} (hd : s.delivery = some d)
    (hne : ∀ code c, d ≠ .settling code (.error c)) : ¬ s.IsRefused := by
  rintro ⟨code, c, hd'⟩
  rw [hd] at hd'
  exact hne code c (Option.some.inj hd')

/-- While items are queued, only a missing consumer makes a stream past. -/
theorem IsPast.of_delivery (h : s.IsPast) {d : Delivery σ ι} (hd : s.delivery = some d)
    (hne : ∀ code step, d ≠ .settling code step) : s.hasConsumer = false := by
  rcases h with hc | hrefused | ⟨-, hnone | ⟨code, step, hd'⟩⟩
  · exact hc
  · exact absurd hrefused (not_isRefused hd fun code c => hne code _)
  · rw [hd] at hnone
    cases hnone
  · rw [hd] at hd'
    exact absurd (Option.some.inj hd') (hne code step)

/-- So it is while the operation goes on. -/
theorem IsPast.of_pending (h : s.IsPast) (hp : s.operation.isDone = false) (hnot : ¬ s.IsRefused) :
    s.hasConsumer = false := by
  rcases h with hc | hrefused | ⟨hp', -⟩
  · exact hc
  · exact absurd hrefused hnot
  · exact absurd (hp.symm.trans hp') Bool.false_ne_true

/-- No consumer comes when the operation is dropped. -/
theorem hasConsumer_of_dropped (h : ({ s with dropped := true } : Stream σ ι).hasConsumer = true) :
    s.hasConsumer = true := by
  unfold hasConsumer at h ⊢
  split
  · next hu =>
    have hany : s.shares.any id = true := by simpa [hu] using h
    simp [hany]
  · rfl
  · next hr => simp [hr] at h

/-- A move brings no consumer. -/
theorem Produces.consumer (hs : Produces s (s', fs)) (h : s'.hasConsumer = true) :
    s.hasConsumer = true := by
  cases hs with
  | still hs => exact hs.consumer h
  | drop => exact hasConsumer_of_dropped h
  | _ => exact h

/-- A move leaves how items are made. -/
theorem Produces.items_eq (hs : Produces s (s', fs)) : s'.items = s.items := by
  cases hs with
  | still h => exact h.items
  | _ => rfl

/-- A move leaves what kind of operation there is. -/
theorem Produces.kind_eq (hs : Produces s (s', fs)) : s'.operation.kind = s.operation.kind := by
  cases hs with
  | still h => exact h.kind
  | publish hc hop => exact hop ▸ Operation.kind_publish _ _
  | _ => rfl

/-- Only a delivery decodes a reply. -/
theorem Produces.replies_eq_nil (hs : Produces s (s', fs)) (hd : s.delivery = none) :
    Event.replies fs = [] := by
  cases hs with
  | still _ hr => exact hr
  | decode hd' =>
    rw [hd] at hd'
    cases hd'
  | push => rfl
  | discard _ _ hes => exact hes.replies
  | ignore _ _ hes => exact hes.replies
  | reject _ _ hes => exact hes.replies
  | accept _ _ hes => exact hes.replies
  | finish _ _ _ hes => exact hes.replies
  | fail _ _ hes => exact hes.replies
  | publish _ _ hes => exact hes.replies
  | take | refuse | share | stall | close | drop => rfl

/-! ## Items -/

/-- The items of the replies are queued in order, and none is lost before it does not matter. -/
def Queues (s : Stream σ ι) (es : List (Event σ ι)) : Prop :=
  Event.queuedItems es ++ s.rest = s.itemsOf es ∨
    s.IsPast ∧ Event.queuedItems es <+: s.itemsOf es

namespace Queues

theorem queued_prefix (h : s.Queues es) : Event.queuedItems es <+: s.itemsOf es := by
  rcases h with h | h
  · exact ⟨_, h⟩
  · exact h.2

/-- A delivery that is not past has lost nothing. -/
theorem queued_eq (h : s.Queues es) (hp : ¬ s.IsPast) :
    Event.queuedItems es ++ s.rest = s.itemsOf es := h.resolve_right fun h => hp h.1

/-- Nothing is queued or decoded, and the delivery keeps its items. -/
theorem keep (h : s.Queues es) (hi : s'.items = s.items) (hrest : s'.rest = s.rest)
    (hr : Event.replies fs = []) (hq : Event.queuedItems fs = []) (hp : s.IsPast → s'.IsPast) :
    s'.Queues (es ++ fs) := by
  unfold Queues itemsOf
  simp only [Event.queuedItems_append, Event.replies_append, hr, hq, hi, hrest, List.append_nil]
  exact h.imp_right fun h => ⟨hp h.1, h.2⟩

/-- The delivery gives up its items when it does not matter. -/
theorem lose (h : s.Queues es) (hi : s'.items = s.items) (hr : Event.replies fs = [])
    (hq : Event.queuedItems fs = []) (hp : s'.IsPast) : s'.Queues (es ++ fs) := by
  refine .inr ⟨hp, ?_⟩
  unfold itemsOf
  simp only [Event.queuedItems_append, Event.replies_append, hr, hq, hi, List.append_nil]
  exact h.queued_prefix

theorem step (h : s.Queues es) (ho : s.Orderly) (hs : Produces s (s', fs)) :
    s'.Queues (es ++ fs) := by
  cases hs with
  | still hs hr hq =>
    refine h.keep hs.items ?_ hr hq fun hp => ?_
    · simp only [rest, hs.delivery, hs.items]
    · unfold IsPast IsRefused at hp ⊢
      rw [hs.delivery, hs.isDone]
      refine hp.imp_left fun hc => Bool.eq_false_iff.2 fun hc' => ?_
      exact absurd (hc.symm.trans (hs.consumer hc')) Bool.false_ne_true
  | take hd hp =>
    refine h.keep rfl (by simp [rest, hd]) rfl rfl fun hpast => ?_
    exact .inl (hpast.of_pending hp (by simp [IsRefused, hd]))
  | @decode m reply hd hm =>
    have hrest : s.rest = [] := by simp [rest, hd]
    have hgrow : ({ s with delivery := some (.decoded m.code reply) } : Stream σ ι).itemsOf
        (es ++ [.decoded reply]) = s.itemsOf es ++ s.items reply := by
      simp [itemsOf, Event.replies, Event.decoded?]
    unfold Queues
    rw [hgrow, Event.queuedItems_append, show Event.queuedItems [.decoded reply] = [] from rfl,
      List.append_nil]
    rcases h with h | ⟨hpast, hpre⟩
    · left
      rw [hrest, List.append_nil] at h
      rw [h]
      rfl
    · have hc := hpast.of_delivery hd (by simp)
      exact .inr ⟨.inl hc, hpre.trans (List.prefix_append _ _)⟩
  | refuse hd =>
    refine h.keep rfl (by simp [rest, hd]) rfl rfl fun _ => ?_
    exact .inr (.inl ⟨_, _, rfl⟩)
  | @share code reply xs hd hr =>
    rcases hr with ⟨hcl, rfl⟩ | ⟨hcl, rfl⟩
    · refine h.keep rfl ?_ rfl rfl fun hpast => .inl (hpast.of_delivery hd (by simp))
      rw [rest_ofRest rfl]
      simp [rest, hd]
    · refine h.lose rfl rfl rfl (.inr (.inr ⟨(ho.standing.of_closed hcl).2.1, .inr ⟨_, _, rfl⟩⟩))
  | @push code reply i xs hd hc =>
    have hq := h.queued_eq fun hpast =>
      absurd ((hpast.of_delivery hd (by simp)).symm.trans hc) Bool.false_ne_true
    left
    rw [rest_ofRest rfl, Event.queuedItems_append,
      show Event.queuedItems [.queued i] = [i] from rfl]
    simp only [itemsOf, Event.replies_append, show Event.replies [.queued i] = [] from rfl,
      List.append_nil]
    rw [← itemsOf, ← hq]
    simp [rest, hd]
  | discard hd hc hes =>
    refine h.lose rfl hes.replies hes.queued ?_
    rcases hc with hcl | hc
    · exact .inr (.inr ⟨(ho.standing.of_closed hcl).2.1, .inr ⟨_, _, rfl⟩⟩)
    · exact .inl hc
  | stall hd => exact h.lose rfl rfl rfl (.inr (.inl ⟨_, _, rfl⟩))
  | ignore hd hp hes =>
    refine h.keep rfl (by simp [rest, hd]) hes.replies hes.queued fun _ => ?_
    exact .inr (.inr ⟨hp, .inl rfl⟩)
  | reject hd hp hes =>
    refine h.keep rfl (by simp [rest, hd]) hes.replies hes.queued fun _ => ?_
    exact .inr (.inr ⟨rfl, .inl rfl⟩)
  | accept hd hp hes =>
    refine h.keep rfl (by simp [rest, hd]) hes.replies hes.queued fun hpast => ?_
    exact .inl (hpast.of_pending hp (not_isRefused hd (by simp)))
  | finish hd hp ho hes =>
    refine h.keep rfl (by simp [rest, hd]) hes.replies hes.queued fun _ => ?_
    exact .inr (.inr ⟨rfl, .inl rfl⟩)
  | fail hp hl hes =>
    refine h.keep rfl rfl hes.replies hes.queued fun hpast => ?_
    exact hpast.imp_right fun hpast => hpast.imp_right fun hpast => ⟨rfl, hpast.2⟩
  | publish hc hop hes =>
    refine h.keep rfl rfl hes.replies hes.queued fun hpast => ?_
    refine hpast.imp_right fun hpast => hpast.imp_right fun hpast => ⟨?_, hpast.2⟩
    simpa [hop, Operation.isDone] using hpast.1
  | close hc => exact h.keep rfl rfl rfl rfl id
  | drop hd hc =>
    refine h.keep rfl rfl rfl rfl fun hpast => hpast.imp_left fun hc => ?_
    refine Bool.eq_false_iff.2 fun hc' => ?_
    exact absurd (hc.symm.trans (hasConsumer_of_dropped hc')) Bool.false_ne_true

end Queues

/-! ## Replies -/

/-- An operation that is not done, and not about to fail, took the replies that were decoded. -/
def Collects (s : Stream σ ι) (es : List (Event σ ι)) : Prop :=
  s.operation.isDone = true ∨ s.IsRefused ∨
    Event.replies es = s.operation.replies ++ s.current

namespace Collects

/-- The delivery keeps its reply. -/
theorem keep (h : s.Collects es) (hp : s.operation.isDone = true → s'.operation.isDone = true)
    (hr : s'.operation.replies = s.operation.replies) (hf : s.IsRefused → s'.IsRefused)
    (hc : s'.current = s.current) (hes : Event.replies fs = []) : s'.Collects (es ++ fs) := by
  unfold Collects
  simp only [Event.replies_append, hes, List.append_nil, hr, hc]
  exact h.imp hp (Or.imp_left hf)

/-- The delivery goes on from a point where it is not refused. -/
theorem goOn (h : s.Collects es) (hnot : ¬ s.IsRefused) (ho : s'.operation = s.operation)
    (hc : s'.current = s.current ++ Event.replies fs) : s'.Collects (es ++ fs) := by
  unfold Collects
  rw [ho, hc, Event.replies_append]
  refine h.imp_right fun h => .inr ?_
  rw [h.resolve_left hnot, List.append_assoc]

theorem step (h : s.Collects es) (hs : Produces s (s', fs)) : s'.Collects (es ++ fs) := by
  cases hs with
  | still hs hr =>
    refine h.keep (fun hp => hs.isDone.trans hp) hs.replies (fun hf => ?_) ?_ hr
    · unfold IsRefused at hf ⊢
      rwa [hs.delivery]
    · simp only [current, hs.delivery]
  | take hd hp =>
    refine h.keep id rfl (fun hf => ?_) (by simp [current, hd]) rfl
    obtain ⟨code, c, hd'⟩ := hf
    rw [hd] at hd'
    cases hd'
  | @decode m reply hd hm =>
    refine h.goOn (not_isRefused hd (by simp)) rfl ?_
    simp [current, hd, Event.replies, Event.decoded?]
  | refuse hd => exact .inr (.inl ⟨_, _, rfl⟩)
  | share hd =>
    refine h.goOn (not_isRefused hd (by simp)) rfl ?_
    rw [current_ofRest rfl]
    simp [current, hd, Event.replies]
  | push hd =>
    refine h.goOn (not_isRefused hd (by simp)) rfl ?_
    rw [current_ofRest rfl]
    simp [current, hd, Event.replies, Event.decoded?]
  | discard hd hc hes =>
    refine h.goOn (not_isRefused hd (by simp)) rfl ?_
    simp [current, hd, hes.replies]
  | stall hd => exact .inr (.inl ⟨_, _, rfl⟩)
  | ignore hd hp => exact .inl hp
  | reject hd hp => exact .inl rfl
  | accept hd hp hes =>
    have hr := (h.resolve_left (by simp [hp])).resolve_left (not_isRefused hd (by simp))
    refine .inr (.inr ?_)
    simpa [current, hd, hes.replies] using hr
  | finish hd hp => exact .inl rfl
  | fail hp => exact .inl rfl
  | publish hc hop hes =>
    exact h.keep (fun hp => by simpa [hop, Operation.isDone] using hp) (by simp [hop]) id rfl
      hes.replies
  | close hc => exact h.keep id rfl id rfl rfl
  | drop hd hc => exact h.keep id rfl id rfl rfl

end Collects

/-! ## Success -/

/-- An operation that succeeded made its value of all replies, and their items were queued, unless
nobody read them. -/
def Succeeds (s : Stream σ ι) (es : List (Event σ ι)) : Prop :=
  ∀ v, s.decided? = some (.ok v) → s.delivery = none ∧
    s.operation.kind.convert (Event.replies es) = .ok v ∧
      (Event.queuedItems es = s.itemsOf es ∨ s.hasConsumer = false)

namespace Succeeds

/-- What was decided before stays. -/
theorem keep (h : s.Succeeds es) (hd : s'.decided? = s.decided?)
    (hl : s.delivery = none → s'.delivery = none) (hk : s'.operation.kind = s.operation.kind)
    (hi : s'.items = s.items) (hc : s'.hasConsumer = true → s.hasConsumer = true)
    (hr : Event.replies fs = []) (hq : Event.queuedItems fs = []) : s'.Succeeds (es ++ fs) := by
  intro v hv
  obtain ⟨hnone, hconv, hall⟩ := h v (hd ▸ hv)
  unfold itemsOf
  simp only [Event.replies_append, Event.queuedItems_append, hr, hq, List.append_nil, hk, hi]
  refine ⟨hl hnone, hconv, hall.imp_right fun hcons => Bool.eq_false_iff.2 fun hcons' => ?_⟩
  exact absurd (hcons.symm.trans (hc hcons')) Bool.false_ne_true

/-- While a reply is delivered there is no success. -/
theorem deliver (h : s.Succeeds es) {d : Delivery σ ι} (hd : s.delivery = some d)
    (hs' : s'.decided? = s.decided?) : s'.Succeeds (es ++ fs) := by
  intro v hv
  rw [(h v (hs' ▸ hv)).1] at hd
  cases hd

theorem fail {c : Cause} (hs' : s'.decided? = some (.error c)) : s'.Succeeds es := by
  intro v hv
  rw [hs'] at hv
  cases hv

theorem step (h : s.Succeeds es) (ho : s.Orderly) (hq : s.Queues es) (hc : s.Collects es)
    (hs : Produces s (s', fs)) : s'.Succeeds (es ++ fs) := by
  cases hs with
  | still hs hr hq =>
    refine h.keep ?_ (fun hd => hs.delivery.trans hd) hs.kind hs.items hs.consumer hr hq
    simp only [decided?, hs.completion, hs.outcome]
  | take hd hp =>
    intro v hv
    have hsome := ho.standing.decided?_isSome
    rw [show s.decided? = some (.ok v) from hv, hp] at hsome
    cases hsome
  | decode hd => exact h.deliver hd rfl
  | refuse hd => exact h.deliver hd rfl
  | share hd => exact h.deliver hd rfl
  | push hd => exact h.deliver hd rfl
  | discard hd => exact h.deliver hd rfl
  | stall hd => exact h.deliver hd rfl
  | ignore hd => exact h.deliver hd rfl
  | reject hd => exact fail rfl
  | accept hd => exact h.deliver hd rfl
  | @finish code reply o _ hd hp hconv hes =>
    intro v hv
    obtain rfl : o = .ok v := Option.some.inj hv
    have hnot : ¬ s.IsRefused := by
      rintro ⟨code', c, hd'⟩
      rw [hd] at hd'
      cases hd'
    have hr := (hc.resolve_left (by simp [hp])).resolve_left hnot
    have hrest : s.rest = [] := by simp [rest, hd]
    refine ⟨rfl, ?_, ?_⟩
    · rw [Event.replies_append, hes.replies, List.append_nil, hr, show s.current = [reply] by
        simp [current, hd]]
      exact hconv
    · unfold itemsOf
      simp only [Event.replies_append, Event.queuedItems_append, hes.replies, hes.queued,
        List.append_nil]
      rcases hq with hq | ⟨hcons | hf | ⟨hp', -⟩, -⟩
      · rw [hrest, List.append_nil] at hq
        exact .inl hq
      · exact .inr hcons
      · exact absurd hf hnot
      · exact absurd (hp.symm.trans hp') Bool.false_ne_true
  | fail => exact fail rfl
  | @publish o op _ hcomp hop hes =>
    have hout := (ho.standing.of_publishing hcomp).2.1
    refine h.keep ?_ id (by simp [hop]) rfl id hes.replies hes.queued
    simp [decided?, hcomp, hop, Operation.outcome_publish_of_none hout]
  | close hcomp => exact h.keep (by simp [decided?, hcomp]) id rfl rfl id rfl rfl
  | drop hd hcomp => exact h.keep rfl id rfl rfl hasConsumer_of_dropped rfl rfl

end Succeeds

end StoreClient.Stream
