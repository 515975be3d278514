import StoreClient.Proofs.Coordinator.Runs

/-!
# The limit of a batch of a coordinator

`batch_keeps_limit` is about a batch that is given to a coordinator, after any acts whatever. At
most `limit` of its items are submitted and not done. Requests are made in the order of the
commands. What an observer is told to be in flight is so. And if dispatching cannot go on although
commands are left, as many items are in flight as the limit allows.
-/

namespace StoreClient.Coordinator

variable {Index : Type} {kinds : Index → Signature} {c : Coordinator kinds} {p : Nat} {i : Index}
  {commands : List (Command (kinds i))} {b : Batch (kinds i)}

/-- The act by which the dispatching of a batch goes on: the next step of the listener that it runs,
if it runs one. -/
def dispatchingAct (c : Coordinator kinds) (p : Nat) : Act kinds :=
  match c.batches[p]?.map (·.2.control) with
  | some (Batch.Control.noting k) => .proceed p k
  | _ => .advance p

theorem move?_dispatchingAct (hb : c.batches[p]? = some ⟨i, b⟩) :
    (c.dispatchingAct p).move? c p =
      some (b.dispatchingMove c.halted c.submissions.length) := by
  unfold dispatchingAct Batch.dispatchingMove
  rw [hb, Option.map_some]
  split
  · next hk => simp_all [Act.move?]
  · next hk =>
    split
    · next hk' => exact absurd (congrArg some hk') (hk _)
    · simp [Act.move?]

theorem pairwise_buildable {σ : Signature} (commands : List (Command σ)) (n : Nat) :
    (buildable commands n).Pairwise (· < ·) :=
  List.Pairwise.filter _ List.pairwise_lt_range

/-- Observers are told of the commands that are dispatched as the transport takes their requests. -/
theorem dispatched_run (h : Batch.Valid commands b) (ms : List Batch.Move) :
    buildable commands b.entries.length ++
      (Notice.events (b.run ms).2).filterMap Batch.Event.dispatched? =
        buildable commands (b.run ms).1.entries.length := by
  induction ms generalizing b with
  | nil => simp [Batch.run]
  | cons m ms ih =>
    rw [show (b.run (m :: ms)).2 = (b.perform m).2 ++ ((b.perform m).1.run ms).2 from rfl,
      show (b.run (m :: ms)).1 = ((b.perform m).1.run ms).1 from rfl, ← ih (h.perform m),
      Notice.events_append, List.filterMap_append, (Batch.step_perform b m).dispatched_events,
      Batch.length_perform, Has.nextIsOk h, ← List.append_assoc]
    cases b.handles m with
    | false => simp
    | true => rw [Bool.true_and, Bool.toNat_true, buildable_succ]

theorem dispatched_dispatch (c : Coordinator kinds) (i : Index)
    (commands : List (Command (kinds i))) (limit : Nat) :
    (eventsOf (c.batches.length + 1) (c.dispatch i commands limit).2).filterMap
      Batch.Event.dispatched? = [] := by
  rw [eventsOf_eq_self fun e he => batch_of_event_dispatch he, events_dispatch]
  by_cases hn : commands = []
  · simp [hn, Batch.Event.dispatched?]
  · by_cases hr : c.runtime = .live <;> simp [hn, hr, Batch.Event.dispatched?]

/-- An event of a batch that an act brings is one of its move of the batch. -/
theorem exists_move_of_event (h : c.Numbered) (hb : c.batches[p]? = some ⟨i, b⟩) {a : Act kinds}
    {e : Batch.Event} (he : e ∈ Notice.events (c.perform a).2) (hid : e.batch = p + 1) :
    ∃ m, e ∈ Notice.events (b.perform m).2 := by
  have hmem : e ∈ eventsOf (p + 1) (c.perform a).2 := by simpa [eventsOf] using ⟨he, hid⟩
  rw [eventsOf_perform h hb] at hmem
  cases hm : a.move? c p with
  | none => simp [hm, Batch.run] at hmem
  | some m => exact ⟨m, by simpa [hm, Batch.run] using hmem⟩

/-- **The limit of a batch.** -/
theorem batch_keeps_limit (hc : Reachable c) (i : Index) (commands : List (Command (kinds i)))
    {limit : Nat} (hmax : limit ≤ Batch.maxPermits) (acts : List (Act kinds)) :
    let given := c.dispatch i commands limit
    let p := c.batches.length
    let d := (given.1.run acts).1
    ∃ b, d.batches[p]? = some ⟨i, b⟩ ∧
      b.outstanding ≤ limit ∧ b.inFlight ≤ limit ∧ b.permits.available ≤ limit ∧
      (d.submitted p).Pairwise (· < ·) ∧ d.submitted p = buildable commands b.entries.length ∧
      (eventsOf (p + 1) (given.2 ++ (given.1.run acts).2)).filterMap Batch.Event.dispatched? =
        d.submitted p ∧
      (∀ a k n, .dispatched (p + 1) k n ∈ Notice.events (d.perform a).2 →
        k = b.entries.length ∧ n = 1 + b.inFlight ∧ n ≤ limit ∧
          (b.IsQuiet → n = 1 + b.outstanding)) ∧
      (d.halted = false → b.interrupted = false → b.rest ≠ [] →
        (d.perform (d.dispatchingAct p)).1 = d →
          b.inFlight = limit ∧ (b.IsQuiet → b.outstanding = limit)) := by
  intro given p d
  obtain ⟨b₀, hg, hhas₀⟩ := hc.exists_has i commands limit
  have hhas := hhas₀.run acts
  have hreach : Reachable d := (hc.dispatch i commands limit).run acts
  generalize hb : (b₀.run (given.1.moves p acts)).1 = b at hhas
  have hlimit : b.limit = limit := by rw [← hb, Batch.limit_run, hg.limit]
  have hheld : b.inFlight ≤ limit :=
    Nat.le_trans (Batch.Valid.inFlight_le_holders b) (hlimit ▸ hhas.valid.held_le)
  refine ⟨b, hhas.batch, Nat.le_trans hhas.valid.outstanding_le_inFlight hheld, hheld,
    hlimit ▸ hhas.valid.available_le, ?_, hhas.submitted, ?_, ?_, ?_⟩
  · rw [hhas.submitted]
    exact pairwise_buildable commands _
  · rw [eventsOf_append, eventsOf_run (hc.dispatch i commands limit) hhas₀.batch,
      List.filterMap_append, dispatched_dispatch, hhas.submitted, ← hb]
    have := dispatched_run hg.valid (given.1.moves p acts)
    rwa [hg.entries] at this
  · intro a k n he
    obtain ⟨m, hm⟩ := exists_move_of_event hreach.numbered hhas.batch he rfl
    obtain ⟨hready, hk, hn, hle⟩ := hhas.valid.inFlight_of_dispatched (Batch.step_perform b m) hm
    refine ⟨hk, hn, hlimit ▸ hle, fun hq => ?_⟩
    rw [hhas.valid.outstanding_eq_inFlight hready hq, hn]
  · intro hh hi hr hstuck
    have hmove := move?_dispatchingAct hhas.batch
    have hnext := batch_perform hhas.batch (d.dispatchingAct p)
    rw [hstuck, hhas.batch, hmove, hh] at hnext
    have hself : (b.perform (b.dispatchingMove false d.submissions.length)).1 = b := by
      simpa [Batch.run] using hnext.symm
    obtain ⟨hready, hfull⟩ := hhas.valid.holders_eq_limit (hlimit ▸ hmax) hi hr hself
    rw [hlimit, ← hhas.valid.inFlight_eq_holders hready] at hfull
    exact ⟨hfull, fun hq => (hhas.valid.outstanding_eq_inFlight hready hq).trans hfull⟩

/-- The batch of echoes when its first operation is out, and its dispatching waits. -/
def firstOut : Batch ⟨Unit, Nat, Nat⟩ :=
  ((Batch.ofCommands 1 1 echoes).run
    [.advance false 0, .advance false 1, .advance false 1]).1

theorem batch_keeps_limit_echoes :
    ((idle.dispatch () echoes 1).1.run [.advance 0, .advance 0, .advance 0]).1.batches[0]? =
      some ⟨(), firstOut⟩ ∧ firstOut.outstanding = 1 := by
  obtain ⟨b, hb, -, -, -, -, -, -, -, hstuck⟩ :=
    batch_keeps_limit reachable_idle () echoes (by decide : 1 ≤ Batch.maxPermits)
      [.advance 0, .advance 0, .advance 0]
  have hbatch : ((idle.dispatch () echoes 1).1.run
      [.advance 0, .advance 0, .advance 0]).1.batches[0]? = some ⟨(), firstOut⟩ := rfl
  have hquiet : ∀ e ∈ firstOut.entries, e.stage.isRunning = false := by decide
  have hb := hbatch.symm.trans hb
  cases hb
  exact ⟨hbatch, (hstuck rfl rfl (List.cons_ne_nil _ _) rfl).2 hquiet⟩

end StoreClient.Coordinator
