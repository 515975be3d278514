import StoreClient.Proofs.Stream.Delivery

/-!
# What readers report

The queue keeps its items in order and the reader hands them out (`Conveys`). Before the queue has
lost its producing end and is empty, the reader reports nothing but items; after that it reports why
the items end, once if there was a failure, and then that there are no more (`Tells`).
-/

namespace StoreClient.Stream

variable {σ : Signature} {ι : Type} {s s' : Stream σ ι} {es fs : List (Event σ ι)}

/-! ## Items -/

/-- What was queued is what was handed out, the item that is ready, and the queue. -/
structure Conveys (s : Stream σ ι) (es : List (Event σ ι)) : Prop where
  unclaimed : s.claim = .unclaimed → Event.reports es = [] ∧ Event.claims es = 0
  claims_le : Event.claims es ≤ 1
  kept : s.claim ≠ .released →
    Event.queuedItems es = Event.handed es ++ s.peeked ++ s.queue
  handed_prefix : Event.handed es <+: Event.queuedItems es

namespace Conveys

theorem peeked_reading {r : Reader ι} (hc : s.claim = .reading r) :
    s.peeked = r.peeked.toList := by
  simp [peeked, hc]

/-- The reader is asked something, and hands out what it had ready or the next item. -/
theorem read (h : s.Conveys es) {r r' : Reader ι} (hc : s.claim = .reading r)
    (hc' : s'.claim = .reading r') (hq : Event.queuedItems fs = []) (hcl : Event.claims fs = 0)
    (hk : r.peeked.toList ++ s.queue = Event.handed fs ++ r'.peeked.toList ++ s'.queue) :
    s'.Conveys (es ++ fs) := by
  have hkept := h.kept (by simp [hc])
  rw [peeked_reading hc, List.append_assoc, hk, ← List.append_assoc, ← List.append_assoc,
    ← Event.handed_append] at hkept
  refine ⟨fun hu => ?_, ?_, fun _ => ?_, ?_⟩
  · rw [hc'] at hu
    cases hu
  · rw [Event.claims_append, hcl]
    exact h.claims_le
  · rw [Event.queuedItems_append, hq, List.append_nil, peeked_reading hc', hkept]
  · rw [Event.queuedItems_append, hq, List.append_nil, hkept, List.append_assoc]
    exact List.prefix_append _ _

theorem step (h : s.Conveys es) (hs : Consumes s (s', fs)) : s'.Conveys (es ++ fs) := by
  cases hs with
  | still hc hq hes =>
    obtain ⟨hqu, hr, hcl⟩ := hes
    have hh : Event.handed fs = [] := by simp [Event.handed, hr]
    constructor
    · intro hu
      simpa [hr, hcl] using h.unclaimed (hc ▸ hu)
    · rw [Event.claims_append, hcl]
      exact h.claims_le
    · intro hrel
      simpa [hqu, hh, peeked, hc, hq] using h.kept (hc ▸ hrel)
    · simpa [hqu, hh] using h.handed_prefix
  | @push _ i hd hc hq =>
    constructor
    · intro hu
      simpa [Event.report?, Event.isClaim] using h.unclaimed (hc ▸ hu)
    · simpa [Event.isClaim] using h.claims_le
    · intro hrel
      have hkept := h.kept (hc ▸ hrel)
      rw [Event.queuedItems_append, hkept]
      simp [Event.queued?, Event.report?, peeked, hc, hq]
    · have hpre := h.handed_prefix.trans (List.prefix_append _ [i])
      simpa [Event.queued?, Event.report?] using hpre
  | claim hc =>
    obtain ⟨hr, hcl⟩ := h.unclaimed hc
    have hkept := h.kept (by simp [hc])
    constructor
    · intro hu
      cases hu
    · simp [hcl, Event.isClaim]
    · intro _
      simpa [Event.queued?, Event.report?, peeked, hc] using hkept
    · simpa [Event.queued?, Event.report?] using h.handed_prefix
  | fetch hc hp hq => exact h.read hc rfl rfl rfl (by simp [hp, hq, Event.report?])
  | hand hc hp he =>
    obtain ⟨hr, hqu, hcl⟩ := he
    exact h.read hc rfl (by simp [hqu]) (by simp [hcl]) (by simp [hp, hr, Report.item?])
  | pass hc hp hq => exact h.read hc rfl rfl rfl (by simp [hp, hq, Event.report?, Report.item?])
  | fail hc hp hq hsp hf hcause he =>
    obtain ⟨hr, hqu, hcl⟩ := he
    exact h.read hc rfl (by simp [hqu]) (by simp [hcl]) (by simp [hp, hr, Report.item?])
  | finish hc hp hq hsp hf he =>
    obtain ⟨hr, hqu, hcl⟩ := he
    exact h.read hc rfl (by simp [hqu]) (by simp [hcl]) (by simp [hr, Report.item?])
  | keep hc hp hf he =>
    obtain ⟨hr, hqu, hcl⟩ := he
    exact h.read hc rfl (by simp [hqu]) (by simp [hcl]) (by simp [hp, hr])
  | release hc =>
    constructor
    · intro hu
      cases hu
    · simpa using h.claims_le
    · exact fun hrel => absurd rfl hrel
    · simpa using h.handed_prefix

end Conveys

/-! ## The end -/

/-- What a reader reports when there are no more items: a failure first, if there was one, and that
the stream has ended, which may be asked again. -/
def ending : Option Cause → Nat → List (Report ι)
  | none, n => List.replicate (n + 1) .ended
  | some c, n => .failure c :: List.replicate n .ended

theorem ending_append (c : Option Cause) (n : Nat) :
    ending c n ++ [.ended] = (ending c (n + 1) : List (Report ι)) := by
  cases c <;> simp [ending, List.replicate_succ']

@[simp] theorem ending_ne_nil (c : Option Cause) (n : Nat) :
    (ending c n : List (Report ι)) ≠ [] := by
  cases c <;> simp [ending]

/-- Nobody will get another item: the queue has no producing end, and the reader took them all. -/
structure IsOver (s : Stream σ ι) (es : List (Event σ ι)) : Prop where
  noProducer : s.hasProducer = false
  empty : s.claim ≠ .released → s.peeked = [] ∧ s.queue = []
  all : Event.handed es = Event.queuedItems es
  success : ∀ v, s.operation.handle.outcome = some (.ok v) → Event.handed es = s.itemsOf es
  reported : ∀ r, s.claim = .reading r → r.failureReported = s.endCause?.isSome

/-- A reader reports items, and after the last one how the stream ended. -/
inductive Tells (s : Stream σ ι) (es : List (Event σ ι)) : Prop where
  | items (hr : Event.reports es = (Event.handed es).map .item)
      (hf : ∀ r, s.claim = .reading r → r.failureReported = false)
  | ending (n : Nat) (ho : s.IsOver es)
      (hr : Event.reports es = (Event.handed es).map .item ++ Stream.ending s.endCause? n)

/-- Without a producing end, a stream is over as soon as the reader took all items. -/
theorem isOver_of_reported (ho : s.Orderly) (hsu : s.Succeeds es) (hp : Produces s (s', fs))
    (hs : s.hasProducer = false) (hall : Event.handed es = Event.queuedItems es)
    (hsuc : ∀ v, s.operation.handle.outcome = some (.ok v) → Event.handed es = s.itemsOf es)
    (hh : Event.handed fs = []) (hq : Event.queuedItems fs = [])
    (hempty : s'.claim ≠ .released → s'.peeked = [] ∧ s'.queue = [])
    (hr : ∀ r', s'.claim = .reading r' → r'.failureReported = s.endCause?.isSome) :
    s'.IsOver (es ++ fs) := by
  obtain ⟨hprod, hcause, hout⟩ := ho.stays_over hs hp
  refine ⟨hprod, hempty, ?_, fun v hv => ?_, fun r' hc => hcause ▸ hr r' hc⟩
  · rw [Event.handed_append, Event.queuedItems_append, hh, hq, hall]
  · have hv' : s.operation.handle.outcome = some (.ok v) := hout ▸ hv
    have hd := (hsu v (ho.standing.decided?_of_outcome hv')).1
    unfold itemsOf
    rw [Event.handed_append, hh, List.append_nil, Event.replies_append, hp.replies_eq_nil hd,
      List.append_nil, hp.items_eq]
    exact hsuc v hv'

/-- A stream that is over stays so. -/
theorem IsOver.next (h : s.IsOver es) (ho : s.Orderly) (hsu : s.Succeeds es)
    (hp : Produces s (s', fs)) (hh : Event.handed fs = []) (hq : Event.queuedItems fs = [])
    (hempty : s'.claim ≠ .released → s.claim ≠ .released ∧ s'.peeked = s.peeked ∧
      s'.queue = s.queue)
    (hr : ∀ r', s'.claim = .reading r' → ∃ r, s.claim = .reading r ∧
      r'.failureReported = r.failureReported) : s'.IsOver (es ++ fs) := by
  refine isOver_of_reported ho hsu hp h.noProducer h.all h.success hh hq (fun hrel => ?_)
    fun r' hc => ?_
  · obtain ⟨hrel', hpeek, hqueue⟩ := hempty hrel
    rw [hpeek, hqueue]
    exact h.empty hrel'
  · obtain ⟨r, hc', hr'⟩ := hr r' hc
    rw [hr']
    exact h.reported r hc'

/-- The reader finds that a stream is over. -/
theorem Conveys.isOver (h : s.Conveys es) (ho : s.Orderly) (hsu : s.Succeeds es) {r : Reader ι}
    (hc : s.claim = .reading r) (hp : r.peeked = none) (hq : s.queue = []) :
    Event.handed es = Event.queuedItems es ∧
      ∀ v, s.operation.handle.outcome = some (.ok v) → Event.handed es = s.itemsOf es := by
  have hkept := h.kept (by simp [hc])
  rw [peeked_reading hc, hp, hq, Option.toList_none, List.append_nil, List.append_nil] at hkept
  refine ⟨hkept.symm, fun v hv => ?_⟩
  have hall := (hsu v (ho.standing.decided?_of_outcome hv)).2.2
  rw [← hkept]
  exact hall.resolve_right (by simp [hasConsumer, hc])

/-- A reader that finds this leaves the stream over, once it has reported the failure, if there was
one. -/
theorem isOver_of_finished (ho : s.Orderly) (hsu : s.Succeeds es) (hv : s.Conveys es)
    (hp : Produces s (s', fs)) (hs : s.hasProducer = false) {r r' : Reader ι}
    (hc : s.claim = .reading r) (hpeek : r.peeked = none) (hqueue : s.queue = [])
    (hc' : s'.claim = .reading r') (hpeek' : r'.peeked = none) (hqueue' : s'.queue = [])
    (hh : Event.handed fs = []) (hq : Event.queuedItems fs = [])
    (hr : r'.failureReported = s.endCause?.isSome) : s'.IsOver (es ++ fs) := by
  obtain ⟨hall, hsuc⟩ := hv.isOver ho hsu hc hpeek hqueue
  refine isOver_of_reported ho hsu hp hs hall hsuc hh hq (fun _ => ⟨?_, hqueue'⟩) fun r₁ hc₁ => ?_
  · rw [Conveys.peeked_reading hc', hpeek']
    rfl
  · rw [hc'] at hc₁
    cases hc₁
    exact hr

theorem IsOver.nothing_left (h : s.IsOver es) {r : Reader ι} (hc : s.claim = .reading r) :
    r.peeked = none ∧ s.queue = [] := by
  obtain ⟨hpeek, hqueue⟩ := h.empty (by simp [hc])
  rw [Conveys.peeked_reading hc, Option.toList_eq_nil_iff] at hpeek
  exact ⟨hpeek, hqueue⟩

namespace Tells

/-- No end was reported before a reader is claimed. -/
theorem unclaimed (h : s.Tells es) (hv : s.Conveys es) (hc : s.claim = .unclaimed) :
    Event.reports es = (Event.handed es).map .item := by
  cases h with
  | items hr => exact hr
  | ending n ho hr =>
    rw [(hv.unclaimed hc).1] at hr
    simp at hr

/-- A move that reports nothing new about the end. -/
theorem keep (h : s.Tells es) (hr : Event.reports fs = (Event.handed fs).map .item)
    (hf : ∀ r', s'.claim = .reading r' → ∃ r, s.claim = .reading r ∧
      r'.failureReported = r.failureReported)
    (hover : s.IsOver es → Event.handed fs = [] ∧ s'.endCause? = s.endCause? ∧
      s'.IsOver (es ++ fs)) : s'.Tells (es ++ fs) := by
  cases h with
  | items hrep hf' =>
    refine .items ?_ fun r' hc => ?_
    · rw [Event.reports_append, Event.handed_append, hrep, hr, List.map_append]
    · obtain ⟨r, hc', hr'⟩ := hf r' hc
      exact hr'.trans (hf' r hc')
  | ending n ho hrep =>
    obtain ⟨hh, hcause, ho'⟩ := hover ho
    refine .ending n ho' ?_
    rw [Event.reports_append, Event.handed_append, hrep, hr, hh, hcause, List.map_nil,
      List.append_nil, List.append_nil]

/-- A reader gets an item: the stream is not over. -/
theorem goOn (h : s.Tells es) (hnot : ¬ s.IsOver es)
    (hr : Event.reports fs = (Event.handed fs).map .item) {r r' : Reader ι}
    (hc : s.claim = .reading r) (hc' : s'.claim = .reading r')
    (hf : r'.failureReported = r.failureReported) : s'.Tells (es ++ fs) := by
  refine h.keep hr (fun r₁ hc₁ => ?_) fun hover => absurd hover hnot
  rw [hc'] at hc₁
  cases hc₁
  exact ⟨r, hc, hf⟩

theorem step (h : s.Tells es) (ho : s.Orderly) (hsu : s.Succeeds es) (hv : s.Conveys es)
    (hp : Produces s (s', fs)) (hs : Consumes s (s', fs)) : s'.Tells (es ++ fs) := by
  cases hs with
  | still hc hq hes =>
    obtain ⟨hqu, hr, -⟩ := hes
    have hh : Event.handed fs = [] := by simp [Event.handed, hr]
    have hsame : ∀ r', s'.claim = .reading r' → ∃ r, s.claim = .reading r ∧
        r'.failureReported = r.failureReported := fun r' hc' => ⟨r', hc ▸ hc', rfl⟩
    refine h.keep (by simp [hr, hh]) hsame fun hover =>
      ⟨hh, (ho.stays_over hover.noProducer hp).2.1, ?_⟩
    exact hover.next ho hsu hp hh hqu (fun hrel => ⟨hc ▸ hrel, by simp [peeked, hc], hq⟩) hsame
  | push hd hc hq =>
    refine h.keep rfl (fun r' hc' => ⟨r', hc ▸ hc', rfl⟩) fun hover => ?_
    have := hover.noProducer
    simp [hasProducer, hd] at this
  | claim hc =>
    refine .items ?_ fun r' hc' => ?_
    · simpa [Event.report?] using h.unclaimed hv hc
    · cases hc'
      rfl
  | fetch hc hp' hq =>
    have hnot : ¬ s.IsOver es := fun hover => by
      have := (hover.nothing_left hc).2
      simp [hq] at this
    exact h.goOn hnot rfl hc rfl rfl
  | hand hc hp' he =>
    have hnot : ¬ s.IsOver es := fun hover => by
      have := (hover.nothing_left hc).1
      simp [hp'] at this
    exact h.goOn hnot (by simp [he.1, Report.item?]) hc rfl rfl
  | pass hc hp' hq =>
    have hnot : ¬ s.IsOver es := fun hover => by
      have := (hover.nothing_left hc).2
      simp [hq] at this
    exact h.goOn hnot rfl hc rfl rfl
  | @fail r c e hc hp' hq hsp hf hcause he =>
    have hh : Event.handed [e] = [] := by simp [he.1, Report.item?]
    have hover := isOver_of_finished ho hsu hv hp hsp hc hp' hq rfl hp' hq hh (by simp [he.2.1])
      (by simp [hcause])
    cases h with
    | ending n hover' =>
      have := hover'.reported r hc
      simp [hf, hcause] at this
    | items hrep =>
      refine .ending 0 hover ?_
      rw [(ho.stays_over hsp hp).2.1, hcause, Event.reports_append, Event.handed_append, hh, hrep]
      simp [he.1, Stream.ending]
  | @finish r e hc hp' hq hsp hf he =>
    have hh : Event.handed [e] = [] := by simp [he.1, Report.item?]
    have hover := isOver_of_finished ho hsu hv hp hsp hc hp' hq rfl hp' hq hh (by simp [he.2.1])
    cases h with
    | items hrep hf' =>
      have hnone : s.endCause? = none := hf.resolve_left (by simp [hf' r hc])
      refine .ending 0 (hover (by simp [hnone, hf' r hc])) ?_
      rw [(ho.stays_over hsp hp).2.1, hnone, Event.reports_append, Event.handed_append, hh, hrep]
      simp [he.1, Stream.ending]
    | ending n hover' hrep =>
      refine .ending (n + 1) (hover (hover'.reported r hc)) ?_
      rw [(ho.stays_over hsp hp).2.1, Event.reports_append, Event.handed_append, hh, hrep,
        ← ending_append]
      simp [he.1]
  | @keep r r₁ e hc hp' hf he =>
    have hsame : ∀ r', Claim.reading r₁ = .reading r' → ∃ r, s.claim = .reading r ∧
        r'.failureReported = r.failureReported := by
      rintro r' ⟨⟩
      exact ⟨r, hc, hf⟩
    refine h.keep (by simp [he.1]) hsame fun hover =>
      ⟨by simp [he.1], (ho.stays_over hover.noProducer hp).2.1, ?_⟩
    exact hover.next ho hsu hp (by simp [he.1]) (by simp [he.2.1])
      (fun _ => ⟨by simp [hc], by simp [peeked, hc, hp'], rfl⟩) hsame
  | release hc =>
    have hsame : ∀ r' : Reader ι, Claim.released = .reading r' → ∃ r, s.claim = .reading r ∧
        r'.failureReported = r.failureReported := by
      intro r' hc'
      cases hc'
    refine h.keep rfl hsame fun hover => ⟨rfl, (ho.stays_over hover.noProducer hp).2.1, ?_⟩
    exact hover.next ho hsu hp rfl rfl (fun hrel => absurd rfl hrel) hsame

end Tells

/-! ## Runs -/

/-- What every move keeps with its events, every run keeps. -/
theorem run_records {P : Stream σ ι → List (Event σ ι) → Prop}
    (hP : ∀ s es m, P s es → P (s.perform m).1 (es ++ (s.perform m).2)) (h : P s es)
    (ms : List Move) : P (s.run ms).1 (es ++ (s.run ms).2) := by
  induction ms generalizing s es with
  | nil => rwa [Stream.run, List.append_nil]
  | cons m ms ih =>
    have hlater := ih (hP s es m h)
    rwa [List.append_assoc] at hlater

/-- What is true of a stream and of what was seen of it. -/
structure Sound (s : Stream σ ι) (es : List (Event σ ι)) : Prop where
  orderly : s.Orderly
  queues : s.Queues es
  collects : s.Collects es
  succeeds : s.Succeeds es
  conveys : s.Conveys es
  tells : s.Tells es

theorem sound_ofKind (k : StreamKind σ ι) (c : StreamConfig) : (ofKind k c).Sound [] where
  orderly := orderly_ofKind k c
  queues := .inl rfl
  collects := .inr (.inr rfl)
  succeeds v hv := by cases hv
  conveys := ⟨fun _ => ⟨rfl, rfl⟩, Nat.zero_le 1, fun _ => rfl, List.prefix_refl _⟩
  tells := .items rfl nofun

namespace Sound

theorem perform (h : s.Sound es) (m : Move) :
    (s.perform m).1.Sound (es ++ (s.perform m).2) := by
  have hp := produces_perform s m
  have hs := consumes_perform s m
  exact {
    orderly := h.orderly.step hp
    queues := h.queues.step h.orderly hp
    collects := h.collects.step hp
    succeeds := h.succeeds.step h.orderly h.queues h.collects hp
    conveys := h.conveys.step hs
    tells := h.tells.step h.orderly h.succeeds h.conveys hp hs }

theorem run (h : s.Sound es) (ms : List Move) : (s.run ms).1.Sound (es ++ (s.run ms).2) :=
  run_records (fun _ _ m h => h.perform m) h ms

end Sound

theorem run_cons (s : Stream σ ι) (m : Move) (ms : List Move) :
    s.run (m :: ms) =
      (((s.perform m).1.run ms).1, (s.perform m).2 ++ ((s.perform m).1.run ms).2) := rfl

theorem run_append (s : Stream σ ι) (ms ms' : List Move) :
    s.run (ms ++ ms') =
      (((s.run ms).1.run ms').1, (s.run ms).2 ++ ((s.run ms).1.run ms').2) := by
  induction ms generalizing s with
  | nil => rfl
  | cons m ms ih => simp [run, ih]

/-- What every move keeps, every run keeps. -/
theorem run_keeps {P : Stream σ ι → Prop} (hP : ∀ s m, P s → P (s.perform m).1) (h : P s)
    (ms : List Move) : P (s.run ms).1 := by
  induction ms generalizing s with
  | nil => exact h
  | cons m ms ih => exact ih (hP s m h)

theorem items_run (s : Stream σ ι) (ms : List Move) : (s.run ms).1.items = s.items :=
  run_keeps (P := fun t => t.items = s.items)
    (fun t m h => (produces_perform t m).items_eq.trans h) rfl ms

theorem kind_run (s : Stream σ ι) (ms : List Move) :
    (s.run ms).1.operation.kind = s.operation.kind :=
  run_keeps (P := fun t => t.operation.kind = s.operation.kind)
    (fun t m h => (produces_perform t m).kind_eq.trans h) rfl ms

end StoreClient.Stream
