import Mathlib.Data.List.Infix
import StoreClient.Proofs.Stream.Completeness
import StoreClient.Proofs.Stream.Feeding

/-!
# Reading a stream to its end

Calls are made on a stream, one after another, and no reply is given up because the queue stays
full. Then no item is lost as long as somebody may read it (`Lossless`), and the replies that are
decoded are those that the calls bring up to the one that decides (`Talk.Tracks`). So once it is
known which call that is, it is known what a reader reports, whatever else the consumer does: the
items of these replies in their order, and then how the operation ended (`Talk.Tracks.yields`).

A reader that finds all calls returned gets there by asking for the next item often enough
(`Talk.Tracks.ends`).
-/

namespace StoreClient

/-- The cause of an outcome that is a failure. -/
def Outcome.failure? {α : Type} : Outcome α → Option Cause
  | .ok _ => none
  | .error c => some c

namespace Stream

variable {σ : Signature} {ι : Type} {s s' : Stream σ ι} {es fs : List (Event σ ι)}

/-! ## What the consumer does -/

/-- Nothing is reported where nobody reads. -/
theorem Consumes.reports_eq_nil (hs : Consumes s (s', fs)) (h : s.hasConsumer = false) :
    Event.reports fs = [] := by
  have hnot {r : Reader ι} (hc : s.claim = .reading r) : False := by
    simp [hasConsumer, hc] at h
  cases hs with
  | still _ _ hes => exact hes.2.1
  | push => rfl
  | claim => rfl
  | release => rfl
  | fetch hc => exact (hnot hc).elim
  | hand hc => exact (hnot hc).elim
  | pass hc => exact (hnot hc).elim
  | fail hc => exact (hnot hc).elim
  | finish hc => exact (hnot hc).elim
  | keep hc => exact (hnot hc).elim

/-- The consumer neither decodes replies nor queues items. -/
theorem mute_perform {m : Move} (hm : m.isConsuming = true) :
    Event.replies (s.perform m).2 = [] ∧ Event.queuedItems (s.perform m).2 = [] := by
  cases m with
  | takeResults =>
    simp only [perform, takeResults]
    split <;> exact ⟨rfl, rfl⟩
  | copyResults n =>
    simp only [perform, copyResults]
    split <;> exact ⟨rfl, rfl⟩
  | dropResults n => exact ⟨rfl, rfl⟩
  | claim n =>
    simp only [perform, claimReader]
    split
    · split <;> exact ⟨rfl, rfl⟩
    · exact ⟨rfl, rfl⟩
  | read what =>
    simp only [perform, read]
    split
    · cases what <;> exact ⟨rfl, rfl⟩
    · exact ⟨rfl, rfl⟩
  | _ => cases hm

/-! ## Items that are not lost -/

/-- The items of the replies were queued, but for those that the delivery has still to queue; some
may be missing if nobody reads any more and only items were reported. -/
def Lossless (s : Stream σ ι) (es : List (Event σ ι)) : Prop :=
  Event.queuedItems es ++ s.rest = s.itemsOf es ∨
    s.hasConsumer = false ∧ Event.reports es = (Event.handed es).map .item

namespace Lossless

/-- Nothing is queued or decoded, and the delivery keeps its items. -/
theorem keep (h : s.Lossless es) (hi : s'.items = s.items) (hrest : s'.rest = s.rest)
    (hr : Event.replies fs = []) (hq : Event.queuedItems fs = [])
    (hc : s'.hasConsumer = true → s.hasConsumer = true)
    (hrep : s.hasConsumer = false → Event.reports fs = []) : s'.Lossless (es ++ fs) := by
  rcases h with h | ⟨hcons, h⟩
  · left
    simpa [itemsOf, hr, hq, hi, hrest] using h
  · right
    have hnil := hrep hcons
    refine ⟨Bool.eq_false_iff.2 fun hcons' => ?_, ?_⟩
    · exact absurd (hcons.symm.trans (hc hcons')) Bool.false_ne_true
    · have hnone : Event.handed fs = [] := by rw [Event.handed, hnil, List.filterMap_nil]
      rw [Event.reports_append, Event.handed_append, hnil, hnone, List.append_nil,
        List.append_nil, h]

/-- Nothing is told about items. -/
theorem silent (h : s.Lossless es) (hi : s'.items = s.items) (hrest : s'.rest = s.rest)
    (hc : s'.hasConsumer = true → s.hasConsumer = true) (hes : Event.Silent fs) :
    s'.Lossless (es ++ fs) :=
  h.keep hi hrest hes.replies hes.queued hc fun _ => hes.reports

theorem consume (h : s.Lossless es) {m : Move} (hm : m.isConsuming = true) :
    (s.perform m).1.Lossless (es ++ (s.perform m).2) := by
  have hsame := (sameCalls_perform (s := s) hm).1
  obtain ⟨hr, hq⟩ := mute_perform (s := s) hm
  refine h.keep hsame.items ?_ hr hq (produces_perform s m).consumer
    (consumes_perform s m).reports_eq_nil
  simp only [rest, hsame.delivery, hsame.items]

theorem begins (h : s.Lossless es) (hd : s.delivery = none) {c : Call}
    (hb : Begins s c (s', fs)) : s'.Lossless (es ++ fs) := by
  cases hb with
  | take => exact h.silent rfl (by simp [rest, hd]) id Event.silent_nil
  | listen => exact h.silent rfl rfl id (Event.silent_noticed _)
  | _ => exact h.silent rfl rfl id ⟨rfl, rfl, rfl, rfl⟩

/-- Items are given up only where nobody may read them. -/
theorem goes (h : s.Lossless es) (ht : s.Tells es) (hcl : s.delivery ≠ none → s.closed = false)
    (hg : Goes s (s', fs)) : s'.Lossless (es ++ fs) := by
  cases hg with
  | @decode m reply hd hm =>
    have hrest : s.rest = [] := by simp [rest, hd]
    rcases h with h | ⟨hcons, h⟩
    · left
      rw [hrest, List.append_nil] at h
      simpa [itemsOf, Event.decoded?, Event.queued?, rest] using h
    · right
      exact ⟨hcons, by simpa [Event.report?] using h⟩
  | refuse hd => exact h.silent rfl (by simp [rest, hd]) id Event.silent_nil
  | share hd hr =>
    rcases hr with ⟨-, rfl⟩ | ⟨hclosed, -⟩
    · refine h.silent rfl ?_ id Event.silent_nil
      rw [rest_ofRest rfl]
      simp [rest, hd]
    · exact absurd ((hcl (by simp [hd])).symm.trans hclosed) Bool.false_ne_true
  | push hd =>
    rcases h with h | ⟨hcons, h⟩
    · left
      rw [rest_ofRest rfl]
      simpa [itemsOf, Event.decoded?, Event.queued?, rest, hd] using h
    · right
      exact ⟨hcons, by simpa [Event.report?] using h⟩
  | discard hd hgone =>
    have hcons := hgone.resolve_left (by simp [hcl (by simp [hd])])
    have hprod : s.hasProducer = true := by simp [hasProducer, isQueueing, hd]
    right
    cases ht with
    | items hr => exact ⟨hcons, by simpa [Event.report?] using hr⟩
    | ending n ho => exact absurd (ho.noProducer.symm.trans hprod) Bool.false_ne_true
  | settle hd =>
    exact h.silent rfl (by simp [rest, hd]) id (Event.silent_accepted (Event.silent_noticed _) _)
  | publish hd => exact h.silent rfl rfl id (Event.silent_noticed _)
  | close hd => exact h.silent rfl rfl id Event.silent_nil

end Lossless

/-! ## The replies of calls -/

/-- The reply that the delivery has still to decode. -/
def toDecode (k : Kind σ) (s : Stream σ ι) : List σ.Reply :=
  match s.delivery with
  | some (.received m) => (k.ruling (.reply m)).reply?.toList
  | _ => []

/-- The replies that were decoded, and the one that is to be decoded, are those that the calls
bring. -/
def Hears (k : Kind σ) (s : Stream σ ι) (es : List (Event σ ι)) (calls : List Call) : Prop :=
  Event.replies es ++ toDecode k s = k.replies calls

theorem toDecode_of_none {k : Kind σ} (hd : s.delivery = none) : toDecode k s = [] := by
  simp [toDecode, hd]

theorem toDecode_ofRest {k : Kind σ} {code : UInt8} {reply : σ.Reply} {xs : List ι}
    (hd : s.delivery = some (.ofRest code reply xs)) : toDecode k s = [] := by
  unfold toDecode
  rw [hd]
  cases xs <;> rfl

namespace Hears

variable {k : Kind σ} {calls : List Call}

theorem consume (h : Hears k s es calls) {m : Move} (hm : m.isConsuming = true) :
    Hears k (s.perform m).1 (es ++ (s.perform m).2) calls := by
  unfold Hears toDecode
  rw [Event.replies_append, (mute_perform (s := s) hm).1, List.append_nil,
    (sameCalls_perform (s := s) hm).1.delivery]
  exact h

/-- Nothing is decoded, and no reply comes. -/
theorem quiet (h : Hears k s es calls) (hs : toDecode k s = []) (hs' : toDecode k s' = [])
    (hes : Event.replies fs = []) {calls' : List Call} (hc : k.replies calls' = k.replies calls) :
    Hears k s' (es ++ fs) calls' := by
  unfold Hears at h ⊢
  rw [Event.replies_append, hes, hs', List.append_nil, List.append_nil, hc]
  rwa [hs, List.append_nil] at h

/-- A call decodes its reply when it is the turn of it. -/
theorem goes (h : Hears k s es calls) (hk : s.operation.kind = k) (hg : Goes s (s', fs)) :
    Hears k s' (es ++ fs) calls := by
  subst hk
  cases hg with
  | @decode m reply hd hm =>
    have hruling : (s.operation.kind.ruling (.reply m)).reply? = some reply := by
      rw [Operation.ruling_reply, hm]
      dsimp only
      split <;> rfl
    unfold Hears at h ⊢
    rw [show toDecode s.operation.kind s = [reply] by simp [toDecode, hd, hruling]] at h
    simpa [toDecode, Event.decoded?] using h
  | @refuse m c hd hm =>
    have hruling : (s.operation.kind.ruling (.reply m)).reply? = none := by
      rw [Operation.ruling_reply, hm]
      rfl
    exact h.quiet (by simp [toDecode, hd, hruling]) rfl rfl rfl
  | share hd => exact h.quiet (by simp [toDecode, hd]) (toDecode_ofRest rfl) rfl rfl
  | push hd => exact h.quiet (by simp [toDecode, hd]) (toDecode_ofRest rfl) rfl rfl
  | discard hd => exact h.quiet (by simp [toDecode, hd]) rfl rfl rfl
  | settle hd =>
    exact h.quiet (by simp [toDecode, hd]) rfl
      (Event.silent_accepted (Event.silent_noticed _) _).replies rfl
  | publish hd =>
    exact h.quiet (toDecode_of_none hd) (toDecode_of_none hd) (Event.silent_noticed _).replies rfl
  | close hd => exact h.quiet (toDecode_of_none hd) (toDecode_of_none hd) rfl rfl

/-- A reply that comes before any call decided is to be decoded, and one that comes later is not. -/
theorem begins (h : Hears k s es calls) (hd : s.delivery = none)
    (hp : s.operation.isDone = (k.decision calls).isSome) {c : Call} (hb : Begins s c (s', fs)) :
    Hears k s' (es ++ fs) (calls ++ [c]) := by
  have hs := toDecode_of_none (k := k) hd
  cases hb with
  | submit => exact h.quiet hs (toDecode_of_none hd) rfl (Kind.replies_append_of_none rfl)
  | @take m hopen =>
    have hdecision : k.decision calls = none := by
      rw [← Option.not_isSome_iff_eq_none, ← hp, hopen]
      exact Bool.false_ne_true
    unfold Hears at h ⊢
    rw [hs, List.append_nil] at h
    rw [Kind.replies_append_singleton hdecision, List.append_nil, h]
    rfl
  | ignore hdone =>
    obtain ⟨o, ho⟩ := Option.isSome_iff_exists.1 (hp.symm.trans hdone)
    exact h.quiet hs hs rfl (Kind.replies_append_of_decided ho _)
  | condemn => exact h.quiet hs (toDecode_of_none hd) rfl (Kind.replies_append_of_none rfl)
  | late => exact h.quiet hs hs rfl (Kind.replies_append_of_none rfl)
  | listen =>
    exact h.quiet hs (toDecode_of_none hd) (Event.silent_noticed _).replies
      (Kind.replies_append_of_none rfl)

end Hears

/-! ## What a reader reports -/

/-- The reports are the first of the items, or all of them and then how they ended: with the
failure, if there was one, and that there are no more. -/
def Yields (xs : List ι) (c : Option Cause) (reports : List (Report ι)) : Prop :=
  reports <+: xs.map .item ∨ ∃ n, reports = xs.map .item ++ ending c n

/-- Once the end was reported, all items were. -/
theorem Yields.of_ended {xs : List ι} {c : Option Cause} {reports : List (Report ι)}
    (h : Yields xs c reports) (hended : .ended ∈ reports) :
    ∃ n, reports = xs.map .item ++ ending c n := by
  refine h.resolve_left fun hfirst => ?_
  obtain ⟨i, -, hi⟩ := List.mem_map.1 (hfirst.subset hended)
  cases hi

theorem endCause?_of_outcome {o : Outcome σ.Output}
    (h : s.operation.handle.outcome = some o) : s.endCause? = o.failure? := by
  cases o with
  | ok v => exact endCause?_of_success h
  | error c => exact endCause?_of_failsWith (.inl h)

/-- A stream that is there and has no producing end is closed, and its handle is complete. -/
theorem Steady.of_noProducer (hs : s.Steady) (ho : s.Orderly) (h : s.hasProducer = false) :
    s.operation.isDone = true ∧ s.completion = none ∧
      ∃ o, s.operation.handle.outcome = some o := by
  have hcl : s.closed = true := by
    cases hcl : s.closed with
    | true => rfl
    | false => simp [hasProducer, hcl, hs.dropped] at h
  obtain ⟨hc, hp, hout⟩ := ho.standing.of_closed hcl
  exact ⟨hp, hc, hout⟩

end Stream

/-! ## Talks -/

namespace Talk

open StoreClient.Stream

variable {σ : Signature} {ι : Type} {k : StreamKind σ ι} {x : Talk σ ι} {calls : List Call}
  {o : Outcome σ.Output}

/-- What is true of a talk with a stream of a kind. -/
structure Tracks (k : StreamKind σ ι) (x : Talk σ ι) : Prop where
  steady : x.stream.Steady
  agrees : x.Agrees (.ofKind k.toKind)
  sound : x.stream.Sound x.events
  kind : x.stream.operation.kind = k.toKind
  items : x.stream.items = k.items
  lossless : x.stream.Lossless x.events
  hears : Hears k.toKind x.stream x.events x.made

namespace Tracks

theorem ofKind (hk : ∀ reply, k.interruptions reply = []) (config : StreamConfig)
    (calls : List Call) : Tracks k { stream := .ofKind k config, waiting := calls } where
  steady := ⟨rfl, hk, fun _ => rfl, fun h => by cases h⟩
  agrees := .returned rfl rfl rfl
  sound := sound_ofKind k config
  kind := rfl
  items := rfl
  lossless := .inl rfl
  hears := rfl

theorem consume (h : Tracks k x) {m : Move} (hm : m.isConsuming = true) :
    Tracks k (x.perform m) where
  steady := h.steady.of_same (sameCalls_perform hm).1
  agrees := by
    have hall : ∀ m' ∈ [m], m'.isConsuming = true := by simpa using hm
    exact h.agrees.of_same (same_performAll x hall)
  sound := h.sound.perform m
  kind := (produces_perform _ m).kind_eq.trans h.kind
  items := (produces_perform _ m).items_eq.trans h.items
  lossless := h.lossless.consume hm
  hears := h.hears.consume hm

theorem consumeAll (h : Tracks k x) {ms : List Move} (hm : ∀ m ∈ ms, m.isConsuming = true) :
    Tracks k (x.performAll ms) := by
  induction ms generalizing x with
  | nil => exact h
  | cons m ms ih =>
    exact ih (h.consume (hm m List.mem_cons_self)) fun m' hm' => hm m' (List.mem_cons_of_mem _ hm')

/-- While a reply is delivered, the operation is not done. -/
theorem isDone_of_delivery (h : Tracks k x) (hd : x.stream.delivery ≠ none) :
    x.stream.operation.isDone = false := by
  obtain ⟨d, hd⟩ := Option.ne_none_iff_exists'.1 hd
  obtain ⟨-, -, -, -, hp, -⟩ := Stream.Agrees.of_delivery h.agrees hd
  exact hp

/-- Where no call goes on, the operation has the outcome that the calls made settle. -/
theorem outcome_of_returned (h : Tracks k x) (hr : x.stream.hasReturned = true) :
    x.stream.operation.handle.outcome = k.decision x.made := by
  rw [(Stream.Agrees.of_returned h.agrees hr).1, Operation.outcome_run]

theorem isDone_of_returned (h : Tracks k x) (hr : x.stream.hasReturned = true) :
    x.stream.operation.isDone = (k.decision x.made).isSome := by
  rw [(Stream.Agrees.of_returned h.agrees hr).1, Operation.isDone_run]

theorem goOn (h : Tracks k x) : Tracks k x.goOn := by
  unfold Talk.goOn
  split
  · next m hm =>
    have hg := goes_perform h.steady hm
    exact {
      steady := hg.steady h.steady
      agrees := h.agrees.step (.goes hg)
      sound := h.sound.perform m
      kind := (produces_perform _ m).kind_eq.trans h.kind
      items := (produces_perform _ m).items_eq.trans h.items
      lossless := h.lossless.goes h.sound.tells (fun hd =>
        (h.sound.orderly.standing.of_pending (h.isDone_of_delivery hd)).2.2) hg
      hears := h.hears.goes h.kind hg }
  · split
    · next hr =>
      split
      · exact h
      · next c rest hw =>
        have hd := (hasReturned_iff.1 hr).1
        have hb := begins_perform h.steady.dropped hd c
        exact {
          steady := hb.steady h.steady hr
          agrees := h.agrees.step (.begins hr hw hb)
          sound := h.sound.perform c.move
          kind := (produces_perform _ c.move).kind_eq.trans h.kind
          items := (produces_perform _ c.move).items_eq.trans h.items
          lossless := h.lossless.begins hd hb
          hears := h.hears.begins hd (h.isDone_of_returned hr) hb }
    · exact h

theorem after (h : Tracks k x) {consumer : Nat → List Move}
    (hc : ∀ t, ∀ m ∈ consumer t, m.isConsuming = true) (t : Nat) :
    Tracks k (x.after consumer t) := by
  induction t with
  | zero => exact h
  | succ t ih => exact (ih.consumeAll (hc t)).goOn

/-- **A reader reports the items of the replies that the calls bring, and then how the operation
ended.** -/
theorem yields (h : Tracks k x) (hm : x.made <+: calls) (ho : k.decision calls = some o) :
    Yields ((k.replies calls).flatMap k.items) o.failure? (Event.reports x.events) := by
  have hall : x.stream.itemsOf x.events = (Event.replies x.events).flatMap k.items := by
    rw [itemsOf, h.items]
  have hreplies : Event.replies x.events <+: k.replies calls :=
    List.IsPrefix.trans ⟨_, h.hears⟩ (Kind.replies_prefix hm)
  cases h.sound.tells with
  | items hr =>
    left
    have hqueued := h.sound.conveys.handed_prefix.trans h.sound.queues.queued_prefix
    rw [hall] at hqueued
    rw [hr]
    exact (hqueued.trans (List.IsPrefix.flatMap hreplies _)).map _
  | ending n hover hr =>
    right
    obtain ⟨hp, hc, o', hout⟩ := h.steady.of_noProducer h.sound.orderly hover.noProducer
    have hd : x.stream.delivery = none := by
      by_contra hd
      exact absurd ((h.isDone_of_delivery hd).symm.trans hp) Bool.false_ne_true
    have hdecision : k.decision x.made = some o' := by
      rw [← h.outcome_of_returned (hasReturned_iff.2 ⟨hd, hc⟩), hout]
    obtain ⟨later, rfl⟩ := hm
    obtain rfl : o' = o := Option.some.inj ((Kind.decision_append hdecision later).symm.trans ho)
    have hheard := h.hears
    rw [Hears, toDecode_of_none hd, List.append_nil] at hheard
    have hqueued : Event.queuedItems x.events = x.stream.itemsOf x.events := by
      have hrest : x.stream.rest = [] := by simp [rest, hd]
      rcases h.lossless with hl | ⟨-, hl⟩
      · rwa [hrest, List.append_nil] at hl
      · simp [hr] at hl
    refine ⟨n, ?_⟩
    rw [hr, hover.all, hqueued, hall, hheard, Kind.replies_append_of_decided hdecision,
      endCause?_of_outcome hout]

end Tracks

/-! ### Reading on -/

theorem events_prefix_performAll (x : Talk σ ι) (ms : List Move) :
    x.events <+: (x.performAll ms).events := by
  induction ms generalizing x with
  | nil => exact List.prefix_refl _
  | cons m ms ih => exact (List.prefix_append _ _).trans (ih (x.perform m))

theorem made_performAll (x : Talk σ ι) (ms : List Move) : (x.performAll ms).made = x.made := by
  induction ms generalizing x with
  | nil => rfl
  | cons m ms ih => exact ih (x.perform m)

/-- A reader that asks for the next item more often than it has something to report gets to the
end. -/
theorem ended_of_nexts {n : Nat} (hf : x.stream.hasProducer = false) {r : Reader ι}
    (hc : x.stream.claim = .reading r) (hn : x.stream.outlook < n) :
    .ended ∈ Event.reports (x.performAll (List.replicate n (.read .next))).events := by
  induction n generalizing x r with
  | zero => exact absurd hn (Nat.not_lt_zero _)
  | succ n ih =>
    rw [List.replicate_succ]
    obtain ⟨hc', hf'⟩ := perform_next hc
    rcases outlook_next hf hc with hlt | hmem
    · exact ih (x := x.perform (.read .next)) (hf'.trans hf) hc'
        (Nat.lt_of_lt_of_le hlt (Nat.le_of_lt_succ hn))
    · refine (List.IsPrefix.filterMap Event.report?
        (events_prefix_performAll (x.perform (.read .next)) _)).subset ?_
      show _ ∈ Event.reports (x.events ++ _)
      rw [Event.reports_append]
      exact List.mem_append_right _ hmem

/-- A reader has no more to report than all items and a failure. -/
theorem Tracks.outlook_le (h : Tracks k x) (hm : x.made <+: calls) {r : Reader ι}
    (hc : x.stream.claim = .reading r) :
    x.stream.outlook ≤ ((k.replies calls).flatMap k.items).length + 1 := by
  have hkept := h.sound.conveys.kept (by simp [hc])
  have hqueued := h.sound.queues.queued_prefix.trans
    (List.IsPrefix.flatMap (List.IsPrefix.trans ⟨_, h.hears⟩ (Kind.replies_prefix hm)) _)
  have hle := hqueued.length_le
  have hfailures : failuresLeft r x.stream.endCause? ≤ 1 := Bool.toNat_le _
  rw [hkept, Conveys.peeked_reading hc, h.items, List.length_append, List.length_append] at hle
  simp only [outlook, hc]
  omega

/-- **A reader that finds all calls returned gets to the end by reading on.** -/
theorem Tracks.ends (h : Tracks k x) (hm : x.made = calls) (ho : k.decision calls = some o)
    (hr : x.stream.hasReturned = true) {r : Reader ι} (hc : x.stream.claim = .reading r) {n : Nat}
    (hn : ((k.replies calls).flatMap k.items).length + 1 < n) :
    ∃ j, Event.reports (x.performAll (List.replicate n (.read .next))).events =
      ((k.replies calls).flatMap k.items).map .item ++ ending o.failure? j := by
  subst hm
  obtain ⟨hd, hcomp⟩ := hasReturned_iff.1 hr
  have hp : x.stream.operation.isDone = true := by
    rw [h.isDone_of_returned hr, ho]
    rfl
  have hcl := h.sound.orderly.standing.closed_of_no_completion hp hcomp
  have hf : x.stream.hasProducer = false := by simp [hasProducer, isQueueing, hcl, hd]
  have hall : ∀ m ∈ List.replicate n (Move.read .next), m.isConsuming = true := by
    intro m hm
    obtain rfl := List.eq_of_mem_replicate hm
    rfl
  have hlt := Nat.lt_of_le_of_lt (h.outlook_le (List.prefix_refl _) hc) hn
  exact ((h.consumeAll hall).yields (made_performAll x _ ▸ List.prefix_refl _) ho).of_ended
    (ended_of_nexts hf hc hlt)

end Talk

/-! ## Streams that are read out -/

namespace Stream

variable {σ : Signature} {ι : Type}

/-- Calls are made on a stream, while its consumer does what it likes. -/
def talk (s : Stream σ ι) (calls : List Call) (consumer : Nat → List Move) (t : Nat) : Talk σ ι :=
  Talk.after { stream := s, waiting := calls } consumer t

/-- A stream on which calls are made goes the way of a plain operation, and its reader gets the
items and then learns how they ended. -/
structure ReadsOut (op : Operation σ) (s : Stream σ ι) (calls : List Call)
    (consumer : Nat → List Move) (xs : List ι) (c : Option Cause) : Prop where
  /-- Whenever a call has returned, the operations are the same, and so is what they answered. -/
  agrees : ∀ t, (s.talk calls consumer t).stream.hasReturned = true →
    (s.talk calls consumer t).made <+: calls ∧
      (s.talk calls consumer t).stream.operation = (op.run (s.talk calls consumer t).made).1 ∧
      Event.answers (s.talk calls consumer t).events = op.answers (s.talk calls consumer t).made
  yields : ∀ t, Yields xs c (Event.reports (s.talk calls consumer t).events)
  /-- All calls return, if none of them waits for room for ever. -/
  returns : (∀ t, ∃ u, t ≤ u ∧
      ((s.talk calls consumer u).performAll (consumer u)).stream.isBlocked = false) →
    ∃ t, (s.talk calls consumer t).stream.hasReturned = true ∧
      (s.talk calls consumer t).made = calls
  /-- From then on, a reader gets to the end by asking for the next item. -/
  ends : ∀ t r, (s.talk calls consumer t).stream.hasReturned = true →
    (s.talk calls consumer t).made = calls → (s.talk calls consumer t).stream.claim = .reading r →
    ∀ n, xs.length + 1 < n → ∃ j, Event.reports
      ((s.talk calls consumer t).performAll (List.replicate n (.read .next))).events =
        xs.map .item ++ ending c j

/-- **A stream is read out to the call that decides.** -/
theorem readsOut {k : StreamKind σ ι} (hk : ∀ reply, k.interruptions reply = [])
    (config : StreamConfig) {calls : List Call} {o : Outcome σ.Output}
    (ho : k.decision calls = some o) {consumer : Nat → List Move}
    (hc : ∀ t, ∀ m ∈ consumer t, m.isConsuming = true) :
    ReadsOut (.ofKind k.toKind) (ofKind k config) calls consumer
      ((k.replies calls).flatMap k.items) o.failure? := by
  have hstart := Talk.Tracks.ofKind hk config calls
  have htracks (t : Nat) : Talk.Tracks k ((ofKind k config).talk calls consumer t) :=
    hstart.after hc t
  have hmade (t : Nat) : ((ofKind k config).talk calls consumer t).made <+: calls :=
    ⟨_, Talk.calls_after hstart.steady hc t⟩
  constructor
  · intro t hr
    exact ⟨hmade t, Agrees.of_returned (htracks t).agrees hr⟩
  · intro t
    exact (htracks t).yields (hmade t) ho
  · intro hb
    obtain ⟨t, hr, hall⟩ := Talk.exists_returned_of_unblocked hstart.steady hc hb rfl rfl
      (Nat.le_refl calls.length)
    exact ⟨t, hr, hall.trans List.take_length⟩
  · intro t r hr hall hclaim n hn
    exact (htracks t).ends hall ho hr hclaim hn

end Stream

end StoreClient
