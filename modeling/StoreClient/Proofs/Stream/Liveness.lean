import StoreClient.Proofs.Sequences
import StoreClient.Proofs.Stream.Reports

/-!
# Streams come to an end

A run is *fair* to the reader of a stream if the calls of the operation come further as long as
there are any, and the reader is asked for its next item again and again and not dropped (`IsFair`).
In a fair run, the reader of a stream whose operation has an outcome, or was dropped, reports the
end some time (`exists_ended`). Two measures descend to zero: how much is left to do for the calls,
once the operation is done (`callRank`), and then how much is left to report (`outlook`).
-/

namespace StoreClient.Stream

variable {σ : Signature} {ι : Type} {s s' : Stream σ ι} {es fs : List (Event σ ι)}

/-! ## The calls of the operation -/

def Completion.rank {α : Type} : Option (Completion α) → Nat
  | some (.publishing _) => 2
  | some .closing => 1
  | none => 0

/-- How much is left to do for the delivery of a reply. -/
def deliveryRank (s : Stream σ ι) : Nat :=
  match s.delivery with
  | none => 0
  | some (.settling _ _) => 1
  | some (.queueing _ _ rest) => 2 + rest.length
  | some (.decoded _ reply) => 3 + (s.items reply).length
  | some (.received m) => match s.operation.examine m with
    | .ok reply => 4 + (s.items reply).length
    | .error _ => 2

/-- How much is left to do for the calls of an operation that is done. -/
def callRank (s : Stream σ ι) : Nat := Completion.rank s.completion + s.deliveryRank

theorem deliveryRank_ofRest {code : UInt8} {reply : σ.Reply} {xs : List ι}
    (hd : s.delivery = some (.ofRest code reply xs)) : s.deliveryRank ≤ 2 + xs.length := by
  unfold deliveryRank
  rw [hd]
  cases xs with
  | nil => exact Nat.le_succ 1
  | cons => exact Nat.le_refl _

/-- A reply whose items are known has them queued next, or settled if the stream is closed. -/
theorem deliveryRank_share {code : UInt8} {reply : σ.Reply} {xs : List ι}
    (hd : s.delivery = some (.decoded code reply))
    (hr : s.closed = false ∧ xs = s.items reply ∨ s.closed = true ∧ xs = []) :
    ({ s with delivery := some (.ofRest code reply xs) } : Stream σ ι).deliveryRank <
      s.deliveryRank := by
  have hle : xs.length ≤ (s.items reply).length := by
    rcases hr with ⟨-, rfl⟩ | ⟨-, rfl⟩
    · exact Nat.le_refl _
    · exact Nat.zero_le _
  have hrank : s.deliveryRank = 3 + (s.items reply).length := by simp [deliveryRank, hd]
  have hnext := deliveryRank_ofRest (s := { s with delivery := some (.ofRest code reply xs) }) rfl
  omega

theorem deliveryRank_push {code : UInt8} {reply : σ.Reply} {i : ι} {xs : List ι}
    (hd : s.delivery = some (.queueing code reply (i :: xs))) (queue : List ι) :
    ({ s with queue := queue, delivery := some (.ofRest code reply xs) } :
      Stream σ ι).deliveryRank < s.deliveryRank := by
  have hrank : s.deliveryRank = 2 + (xs.length + 1) := by simp [deliveryRank, hd]
  have hnext := deliveryRank_ofRest
    (s := { s with queue := queue, delivery := some (.ofRest code reply xs) }) rfl
  omega

theorem examine_congr {op op' : Operation σ} (h : op'.kind = op.kind) (m : Message) :
    op'.examine m = op.examine m := by
  unfold Operation.examine
  rw [h]

/-- If the operation is done, a move brings its calls further, or leaves them where they are. -/
theorem callRank_step (hp : s.operation.isDone = true) (hs : Produces s (s', fs)) :
    s'.callRank < s.callRank ∨
      s'.callRank = s.callRank ∧ s'.delivery = s.delivery ∧ s'.completion = s.completion := by
  have hnot : s.operation.isDone ≠ false := by simp [hp]
  cases hs with
  | still hs =>
    refine .inr ⟨?_, hs.delivery, hs.completion⟩
    simp only [callRank, deliveryRank, hs.completion, hs.delivery, hs.items, examine_congr hs.kind]
  | take hd hp' => exact absurd hp' hnot
  | reject hd hp' => exact absurd hp' hnot
  | accept hd hp' => exact absurd hp' hnot
  | finish hd hp' => exact absurd hp' hnot
  | fail hp' => exact absurd hp' hnot
  | decode hd hm => exact .inl (by simp [callRank, deliveryRank, hd, hm])
  | refuse hd hm => exact .inl (by simp [callRank, deliveryRank, hd, hm])
  | share hd hr => exact .inl (Nat.add_lt_add_left (deliveryRank_share hd hr) _)
  | push hd => exact .inl (Nat.add_lt_add_left (deliveryRank_push hd _) _)
  | discard hd => exact .inl (by simp [callRank, deliveryRank, hd]; omega)
  | stall hd => exact .inl (by simp [callRank, deliveryRank, hd]; omega)
  | ignore hd => exact .inl (by simp [callRank, deliveryRank, hd])
  | publish hc hop =>
    left
    have hkind := examine_congr (hop ▸ Operation.kind_publish _ _ : _ = s.operation.kind)
    simp only [callRank, deliveryRank, hkind, hc, Completion.rank]
    omega
  | close hc => exact .inl (by simp [callRank, deliveryRank, hc, Completion.rank])
  | drop hd hc => exact .inr ⟨rfl, rfl, rfl⟩

theorem no_calls_of_callRank (h : s.callRank = 0) : s.delivery = none ∧ s.completion = none := by
  unfold callRank at h
  constructor
  · cases hd : s.delivery with
    | none => rfl
    | some d =>
      simp only [deliveryRank, hd] at h
      split at h <;> first | omega | (split at h <;> omega)
  · cases hc : s.completion with
    | none => rfl
    | some x => cases x <;> simp [hc, Completion.rank] at h

/-- What is done stays so. -/
theorem Orderly.isDone_step (h : s.Orderly) (hp : s.operation.isDone = true)
    (hs : Produces s (s', fs)) : s'.operation.isDone = true := by
  rw [← h.standing.decided?_isSome, Option.isSome_iff_exists] at hp
  obtain ⟨o, ho⟩ := hp
  rw [← (h.step hs).standing.decided?_isSome, h.decided?_step hs ho]
  rfl

/-! ## The reader -/

/-- How many failures the reader has to report. -/
def failuresLeft (r : Reader ι) (c : Option Cause) : Nat := (c.isSome && !r.failureReported).toNat

/-- How much the reader has to report before the end, if nothing comes any more. -/
def outlook (s : Stream σ ι) : Nat :=
  match s.claim with
  | .reading r => r.peeked.toList.length + s.queue.length + failuresLeft r s.endCause?
  | _ => 0

/-- Where nothing is queued any more, a move of the reader does not add to the outlook. -/
theorem outlook_step (ho : s.Orderly) (hf : s.hasProducer = false) (hc : s.claim ≠ .unclaimed)
    (hp : Produces s (s', fs)) (hs : Consumes s (s', fs)) : s'.outlook ≤ s.outlook := by
  obtain ⟨-, hcause, -⟩ := ho.stays_over hf hp
  unfold outlook
  rw [hcause]
  cases hs with
  | still hc' hq =>
    refine Nat.le_of_eq ?_
    rw [hc', hq]
  | push hd => simp [hasProducer, hd] at hf
  | claim hc' => exact absurd hc' hc
  | fetch hc' hp' hq =>
    simp only [hc', hp', hq, Option.toList_some, Option.toList_none, List.length_cons,
      List.length_nil, failuresLeft]
    omega
  | hand hc' hp' => simp [hc', hp', failuresLeft]
  | pass hc' hp' hq => simp [hc', hp', hq, failuresLeft]
  | fail hc' hp' hq hsp hr hcause' => simp [hc', hp', hq, failuresLeft]
  | finish hc' => simp [hc']
  | keep hc' hp' hr => simp [hc', hp', hr, failuresLeft]
  | release hc' => simp

/-- Asked for its next item, the reader has less to report afterwards, or reports the end. -/
theorem outlook_next (hf : s.hasProducer = false) {r : Reader ι} (hc : s.claim = .reading r) :
    (s.perform (.read .next)).1.outlook < s.outlook ∨
      .ended ∈ Event.reports (s.perform (.read .next)).2 := by
  have hl := looks_hasNext s r
  simp only [perform, read, hc, ask, next]
  generalize s.hasNext r = x at hl ⊢
  cases hl with
  | peeked hp =>
    left
    simp only [nextItem, hp, outlook, hc, Option.toList_some, Option.toList_none,
      List.length_cons, List.length_nil]
    show 0 + s.queue.length + failuresLeft r s.endCause? <
      0 + 1 + s.queue.length + failuresLeft r s.endCause?
    omega
  | @fetch i rest hp hq =>
    left
    simp only [nextItem, hp, hq, outlook, hc, Option.toList_none, List.length_cons,
      List.length_nil]
    show 0 + rest.length + failuresLeft r s.endCause? <
      0 + (rest.length + 1) + failuresLeft r s.endCause?
    omega
  | wait hp hq hs => exact absurd (hf.symm.trans hs) Bool.false_ne_true
  | fail hp hq hs hr hcause =>
    left
    have hcause' : s.endCause?.isSome = true := by simp [hcause]
    simp [outlook, hc, hp, hq, hr, hcause', failuresLeft]
  | finish hp hq hs hr =>
    right
    simp [Event.report?]

/-! ## Infinite runs -/

/-- The stream after the first `t` of the moves. -/
def after (s : Stream σ ι) (moves : Nat → Move) (t : Nat) : Stream σ ι :=
  (s.run (firsts moves t)).1

/-- What was seen of the first `t` of the moves. -/
def history (s : Stream σ ι) (moves : Nat → Move) (t : Nat) : List (Event σ ι) :=
  (s.run (firsts moves t)).2

theorem after_succ (s : Stream σ ι) (moves : Nat → Move) (t : Nat) :
    s.after moves (t + 1) = ((s.after moves t).perform (moves t)).1 := by
  simp [after, firsts_succ, run_append, run]

theorem history_succ (s : Stream σ ι) (moves : Nat → Move) (t : Nat) :
    s.history moves (t + 1) =
      s.history moves t ++ ((s.after moves t).perform (moves t)).2 := by
  simp [after, history, firsts_succ, run_append, run]

/-- The calls of the operation come further, and the reader is used. -/
structure IsFair (s : Stream σ ι) (moves : Nat → Move) : Prop where
  /-- As long as there are calls, one of them comes further some time. -/
  calls : ∀ t, (∀ u, t ≤ u →
      (s.after moves u).delivery.isSome = true ∨ (s.after moves u).completion.isSome = true) →
    ∃ u, t ≤ u ∧ ((s.after moves (u + 1)).delivery ≠ (s.after moves u).delivery ∨
      (s.after moves (u + 1)).completion ≠ (s.after moves u).completion)
  /-- The reader is asked for its next item. -/
  reads : ∀ t, ∃ u, t ≤ u ∧ moves u = .read .next
  /-- The reader is not dropped. -/
  keeps : ∀ t, (s.after moves t).claim ≠ .released

theorem produces_after (s : Stream σ ι) (moves : Nat → Move) (t : Nat) :
    Produces (s.after moves t)
      (s.after moves (t + 1), ((s.after moves t).perform (moves t)).2) := by
  rw [after_succ]
  exact produces_perform _ _

theorem consumes_after (s : Stream σ ι) (moves : Nat → Move) (t : Nat) :
    Consumes (s.after moves t)
      (s.after moves (t + 1), ((s.after moves t).perform (moves t)).2) := by
  rw [after_succ]
  exact consumes_perform _ _

/-- If the operation is done, its calls come to an end, and the queue loses its producing end. -/
theorem exists_noProducer (h : s.Sound es) {moves : Nat → Move} (hfair : s.IsFair moves) {t : Nat}
    (ht : (s.after moves t).operation.isDone = true) :
    ∃ u, (s.after moves u).hasProducer = false := by
  have hord : ∀ u, (s.after moves u).Orderly := fun u => (h.run _).orderly
  have hdone : ∀ u, t ≤ u → (s.after moves u).operation.isDone = true := by
    intro u hu
    induction hu with
    | refl => exact ht
    | step hu ih => exact (hord _).isDone_step ih (produces_after s moves _)
  have hmono : ∀ u, t ≤ u → (s.after moves (u + 1)).callRank ≤ (s.after moves u).callRank := by
    intro u hu
    rcases callRank_step (hdone u hu) (produces_after s moves u) with hlt | ⟨heq, -⟩
    · exact Nat.le_of_lt hlt
    · exact Nat.le_of_eq heq
  obtain ⟨u, hu, hz⟩ := exists_eq_zero_of_descent (fun u => (s.after moves u).callRank) hmono
    fun u hu _ => by
    by_cases hcalls : ∀ v, u ≤ v →
        (s.after moves v).delivery.isSome = true ∨ (s.after moves v).completion.isSome = true
    · obtain ⟨v, hv, hchange⟩ := hfair.calls u hcalls
      refine ⟨v, hv, .inl ?_⟩
      rcases callRank_step (hdone v (Nat.le_trans hu hv)) (produces_after s moves v) with
        hlt | ⟨-, hd, hc⟩
      · exact hlt
      · exact absurd hd (hchange.resolve_right (absurd hc))
    · simp only [not_forall, not_or, Bool.not_eq_true, Option.isSome_eq_false_iff,
        Option.isNone_iff_eq_none] at hcalls
      obtain ⟨v, hv, hd, hc⟩ := hcalls
      exact ⟨v, hv, .inr (by simp [callRank, deliveryRank, hd, hc, Completion.rank])⟩
  refine ⟨u, ?_⟩
  obtain ⟨hd, hc⟩ := no_calls_of_callRank hz
  have hcl := (hord u).standing.closed_of_no_completion (hdone u hu) hc
  simp [hasProducer, hcl, isQueueing, hd]

/-- A claimed reader stays claimed until it is dropped. -/
theorem Consumes.reading (hs : Consumes s (s', fs)) {r : Reader ι} (hc : s.claim = .reading r)
    (hk : s'.claim ≠ .released) : ∃ r', s'.claim = .reading r' := by
  cases hs with
  | still hc' => exact ⟨r, hc'.trans hc⟩
  | push _ hc' => exact ⟨r, hc'.trans hc⟩
  | release => exact absurd rfl hk
  | _ => exact ⟨_, rfl⟩

/-- The reader of a stream whose operation is done or dropped reports the end some time. -/
theorem exists_ended (h : s.Sound es) {moves : Nat → Move} (hfair : s.IsFair moves) {t t' : Nat}
    (ht : (s.after moves t).operation.isDone = true ∨ (s.after moves t).dropped = true)
    {r : Reader ι} (ht' : (s.after moves t').claim = .reading r) :
    ∃ u, .ended ∈ Event.reports (s.history moves u) := by
  have hord : ∀ u, (s.after moves u).Orderly := fun u => (h.run _).orderly
  obtain ⟨t₀, ht₀⟩ : ∃ u, (s.after moves u).hasProducer = false := by
    rcases ht with hp | hl
    · exact exists_noProducer h hfair hp
    · exact ⟨t, by simp [hasProducer, hl, isQueueing, ((hord t).dropped hl).1]⟩
  have hnone : ∀ u, t₀ ≤ u → (s.after moves u).hasProducer = false := by
    intro u hu
    induction hu with
    | refl => exact ht₀
    | step hu ih => exact ((hord _).stays_over ih (produces_after s moves _)).1
  have hreading : ∀ u, t' ≤ u → ∃ r, (s.after moves u).claim = .reading r := by
    intro u hu
    induction hu with
    | refl => exact ⟨r, ht'⟩
    | step hu ih =>
      obtain ⟨r', hr'⟩ := ih
      exact (consumes_after s moves _).reading hr' (hfair.keeps _)
  by_cases hend : ∃ u, .ended ∈ Event.reports ((s.after moves u).perform (moves u)).2
  · obtain ⟨u, hu⟩ := hend
    refine ⟨u + 1, ?_⟩
    rw [history_succ, Event.reports_append]
    exact List.mem_append_right _ hu
  -- otherwise the outlook would shrink whenever the reader is asked
  have hshrink : ∀ u, t₀ ≤ u → t' ≤ u → moves u = .read .next →
      (s.after moves (u + 1)).outlook < (s.after moves u).outlook := by
    intro u hu hu' hm
    obtain ⟨r', hr'⟩ := hreading u hu'
    have hnext := outlook_next (hnone u hu) hr'
    rw [← hm, ← after_succ] at hnext
    exact hnext.resolve_right fun hmem => hend ⟨u, hmem⟩
  have hmono : ∀ u, max t₀ t' ≤ u →
      (s.after moves (u + 1)).outlook ≤ (s.after moves u).outlook := by
    intro u hu
    obtain ⟨r', hr'⟩ := hreading u (by omega)
    exact outlook_step (hord u) (hnone u (by omega)) (by simp [hr']) (produces_after s moves u)
      (consumes_after s moves u)
  obtain ⟨u, hu, hz⟩ := exists_eq_zero_of_descent (fun u => (s.after moves u).outlook) hmono
    fun u hu _ => by
    obtain ⟨v, hv, hm⟩ := hfair.reads u
    exact ⟨v, hv, .inl (hshrink v (by omega) (by omega) hm)⟩
  obtain ⟨v, hv, hm⟩ := hfair.reads u
  have hlt := hshrink v (by omega) (by omega) hm
  have hle := le_of_never_grows (fun u => (s.after moves u).outlook) hmono hu hv
  simp only [hz] at hle
  omega

end StoreClient.Stream
