import StoreClient.Batch.Commands
import StoreClient.Proofs.Coordinator.Completeness
import StoreClient.Proofs.Coordinator.Interruption

/-!
# Limits that can be dispatched

The configuration accepts every limit but zero. `limit_admission` tells what becomes of a batch with
a limit that it accepts, on a live runtime, if nobody halts the coordinator or gives up the
dispatching of the batch. With a limit of at most `Batch.maxPermits` the batch never fails, and it
completes in every fair run; where the limit is not below the number of commands, its dispatching
never waits for a permit. With a higher limit the batch is refused (`Refuses`): nothing of it is
handled, and in every fair run it fails as one that was interrupted, though nothing interrupted it.
-/

namespace StoreClient.Batch

variable {σ : Signature} {commands : List (Command σ)} {b : Batch σ}

/-- Where there is a permit for every command, dispatching does not wait for one. -/
theorem Valid.isBlocked_eq_false (h : Valid commands b) (hle : commands.length ≤ b.limit)
    (halted : Bool) : b.isBlocked halted = false := by
  by_contra hb
  simp only [isBlocked, Bool.not_eq_false, Bool.and_eq_true, Bool.not_eq_true',
    beq_iff_eq] at hb
  obtain ⟨⟨⟨⟨hc, -⟩, -⟩, -⟩, ht⟩ := hb
  have hunheld := (Permits.unheld_of_not_take (Prod.ext rfl ht)).2
  have hheld := h.held
  have hready := h.ready hc
  have hcount := List.countP_le_length (p := fun e : Entry σ => e.stage.holdsPermit)
    (l := b.entries)
  omega

/-- A batch of which nothing was handled is not done, or was interrupted. -/
theorem Valid.outcome_of_entries (h : Valid commands b) (hne : commands ≠ [])
    (he : b.entries = []) {x : Outcome (List (Item σ))} (hx : b.aggregate.outcome = some x) :
    x = .error (.dispatchInterrupted 0 commands.length) := by
  cases hi : b.interrupted with
  | true =>
    have ho := (h.interrupted hi).2.2
    rw [hx, he] at ho
    exact Option.some.inj ho
  | false =>
    have hrem : b.remaining = commands.length := by simpa [he] using h.remaining
    have hpos := hrem ▸ List.length_pos_iff.2 hne
    rw [h.pending hi hpos] at hx
    cases hx

end StoreClient.Batch

namespace StoreClient.Coordinator

variable {Index : Type} {kinds : Index → Signature} {c : Coordinator kinds} {p : Nat} {i : Index}
  {commands : List (Command (kinds i))} {b : Batch (kinds i)}

/-! ## Ways to give a limit -/

/-- A batch is given with the same limit in whichever way the limit is given. -/
theorem dispatch_of_validate {n : UInt64} (hn : FanOutConfig.validate ⟨n⟩ = .ok ())
    (c : Coordinator kinds) (i : Index) (commands : List (Command (kinds i))) :
    c.executeWithLimit i commands n = .ok (c.dispatch i commands n.toNat) ∧
      ((Commands.ofList commands).withLimit n).execute c =
        .ok (c.dispatch i commands n.toNat) ∧
      (c.limit = n.toNat → c.execute i commands = c.dispatch i commands n.toNat ∧
        (Commands.ofList commands).execute c = .ok (c.dispatch i commands n.toNat)) := by
  have hwith : c.executeWithLimit i commands n = .ok (c.dispatch i commands n.toNat) := by
    unfold executeWithLimit
    rw [hn]
    rfl
  refine ⟨hwith, hwith, fun hl => ?_⟩
  have hplain : c.execute i commands = c.dispatch i commands n.toNat := by
    unfold execute
    rw [hl]
  exact ⟨hplain, congrArg Except.ok hplain⟩

/-! ## Refused batches -/

/-- In a fair run, a batch that was refused and has not started is interrupted: as long as it is
not, its dispatching could go on. -/
theorem Has.exists_interrupted (h : c.Has p commands b) (hb : IsUnstarted b) (hr : c.Refuses b)
    {acts : Nat → Act kinds} (hfair : c.IsFair p acts) :
    ∃ t, (c.batchAfter p b acts t).interrupted = true := by
  by_contra hnever
  have hint : ∀ t, (c.batchAfter p b acts t).interrupted = false := fun t =>
    Bool.eq_false_iff.2 fun hi => hnever ⟨t, hi⟩
  have hnext : ∀ t, ((c.batchAfter p b acts t).run
      ((Act.advance p).move? (c.after acts t) p).toList).1.interrupted = true := fun t =>
    ((hb.run h hr (firsts acts t)).1.perform (h.after acts t) (hr.run _) (.advance p)).2 rfl
  obtain ⟨u, -, hu⟩ := hfair.goesOn (.advance p) 0 rfl fun u _ heq => by
    have hbatch := batch_perform (h.after acts u).batch (.advance p)
    rw [heq, (h.after acts u).batch] at hbatch
    have hsame : c.batchAfter p b acts u = ((c.batchAfter p b acts u).run
        ((Act.advance p).move? (c.after acts u) p).toList).1 := by
      simpa using hbatch
    have := hnext u
    rw [← hsame, hint u] at this
    cases this
  have hlast := hint (u + 1)
  rw [batchAfter_succ, hu, hnext u] at hlast
  cases hlast

/-! ## Admission -/

/-- **Limits that can be dispatched.** -/
theorem limit_admission (hc : Reachable c) (hlive : c.runtime = .live) (hh : c.halted = false)
    (i : Index) {commands : List (Command (kinds i))} (hne : commands ≠ []) {n : UInt64}
    (hn : FanOutConfig.validate ⟨n⟩ = .ok ()) (acts : Nat → Act kinds)
    (ha : ∀ t, (acts t).Lets c.batches.length) :
    let given := (c.dispatch i commands n.toNat).1
    let p := c.batches.length
    -- how the limit is given
    (c.executeWithLimit i commands n = .ok (c.dispatch i commands n.toNat) ∧
      ((Commands.ofList commands).withLimit n).execute c =
        .ok (c.dispatch i commands n.toNat) ∧
      (c.limit = n.toNat → c.execute i commands = c.dispatch i commands n.toNat ∧
        (Commands.ofList commands).execute c = .ok (c.dispatch i commands n.toNat))) ∧
    -- a limit that permits can keep
    (n.toNat ≤ Batch.maxPermits →
      (∀ t, ∃ b, (given.after acts t).batches[p]? = some ⟨i, b⟩ ∧
        (∀ x, b.aggregate.outcome ≠ some (.error x)) ∧
        (commands.length ≤ n.toNat → (given.after acts t).isBlocked p = false)) ∧
      (given.IsFair p acts → ∃ t b items, (given.after acts t).batches[p]? = some ⟨i, b⟩ ∧
        b.aggregate.outcome = some (.ok items) ∧
        (items.map (·.index)).Perm (List.range commands.length) ∧
        (given.after acts t).submitted p = buildable commands commands.length)) ∧
    -- a higher limit
    (Batch.maxPermits < n.toNat →
      (∀ t, ∃ b, (given.after acts t).batches[p]? = some ⟨i, b⟩ ∧ b.entries = [] ∧
        (given.after acts t).submitted p = [] ∧ ∀ x, b.aggregate.outcome = some x →
          x = .error (.dispatchInterrupted 0 commands.length)) ∧
      (given.IsFair p acts → ∃ t b, (given.after acts t).batches[p]? = some ⟨i, b⟩ ∧
        b.aggregate.outcome = some (.error (.dispatchInterrupted 0 commands.length)))) := by
  intro given p
  obtain ⟨b, hg, hhas⟩ := hc.exists_has i commands n.toNat
  have hafter : ∀ t, (given.after acts t).Has p commands (given.batchAfter p b acts t) :=
    hhas.after acts
  have hlimit : ∀ t, (given.batchAfter p b acts t).limit = n.toNat := fun t =>
    (limit_batchAfter given p b acts t).trans hg.limit
  refine ⟨dispatch_of_validate hn c i commands, fun hmax => ?_, fun hmax => ?_⟩
  · have hu := undisturbed_dispatch hlive hh hmax hg
    have hint : ∀ t, (given.batchAfter p b acts t).interrupted = false := fun t =>
      (hu.run hhas (forall_mem_firsts ha t)).interrupted
    refine ⟨fun t => ⟨_, (hafter t).batch, fun x hx => ?_, fun hle => ?_⟩, fun hfair => ?_⟩
    · have hi := (hafter t).valid.failed_iff.1 ⟨x, hx⟩
      rw [hint t] at hi
      cases hi
    · unfold isBlocked
      rw [(hafter t).batch]
      exact (hafter t).valid.isBlocked_eq_false (by rwa [hlimit t]) _
    · have hpos : 0 < b.limit := by
        rw [hg.limit]
        refine Nat.pos_of_ne_zero fun hz => ?_
        obtain rfl : n = 0 := UInt64.toNat_inj.1 hz
        cases hn
      obtain ⟨t, ht⟩ := hhas.exists_remaining_eq_zero hpos hu.limit_le hfair hint
      refine ⟨t, _, _, (hafter t).batch, (hafter t).valid.completed (hint t) ht,
        (hafter t).valid.perm_range ht, ?_⟩
      rw [(hafter t).submitted, (hafter t).valid.length_eq_of_remaining ht]
  · have hrefuses : given.Refuses b := .inr (by rwa [hg.limit])
    have hunstarted := isUnstarted_of_entries hg.valid hne hg.entries
    have hnone : ∀ t, (given.batchAfter p b acts t).entries = [] := fun t =>
      (hunstarted.run hhas hrefuses (firsts acts t)).1.1
    refine ⟨fun t => ⟨_, (hafter t).batch, hnone t, ?_, fun x hx => ?_⟩, fun hfair => ?_⟩
    · rw [(hafter t).submitted, hnone t]
      rfl
    · exact (hafter t).valid.outcome_of_entries hne (hnone t) hx
    · obtain ⟨t, hi⟩ := hhas.exists_interrupted hunstarted hrefuses hfair
      refine ⟨t, _, (hafter t).batch, ?_⟩
      have := ((hafter t).valid.interrupted hi).2.2
      rwa [hnone t] at this

theorem limit_admission_echoes :
    ∃ t b items, ((idle.dispatch () echoes 1).1.after echoActs t).batches[0]? = some ⟨(), b⟩ ∧
      b.aggregate.outcome = some (.ok items) ∧ (items.map (·.index)).Perm (List.range 3) ∧
      ((idle.dispatch () echoes 1).1.after echoActs t).submitted 0 = [0, 2] :=
  ((limit_admission reachable_idle rfl rfl () (show echoes ≠ [] from List.cons_ne_nil _ _)
    (n := 1) rfl echoActs lets_echoActs).2.1 (by decide)).2 isFair_echoActs

/-- The configuration accepts a limit of `2 ^ 61`, but the batch of echoes fails with it as soon as
its dispatching goes on. -/
theorem exists_limit_refused : FanOutConfig.validate ⟨2305843009213693952⟩ = .ok () ∧
    ∃ given, idle.executeWithLimit () echoes 2305843009213693952 = .ok given ∧
      given.1.runtime = .live ∧ given.1.halted = false ∧
      ∃ b, (given.1.run [.advance 0]).1.batches[0]? = some ⟨(), b⟩ ∧
        b.aggregate.outcome = some (.error (.dispatchInterrupted 0 3)) :=
  ⟨rfl, _, rfl, rfl, rfl, _, rfl, rfl⟩

end StoreClient.Coordinator
