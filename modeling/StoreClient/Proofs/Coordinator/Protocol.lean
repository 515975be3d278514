import StoreClient.Proofs.Batch.Protocol
import StoreClient.Proofs.Coordinator.Runs
import StoreClient.Proofs.Observers

/-!
# The protocol of events of a coordinator

`batch_follows_protocol` is about a batch that is given to a coordinator, after any acts whatever:
what observers were told of the batch so far keeps to the protocol, in every interleaving with other
batches, with answers at any time, and whether the batch is interrupted or not. The events that it
begins with do so (`IsGiven.protocol`), and the rest is a run of its own moves.
-/

namespace StoreClient.Coordinator

variable {Index : Type} {kinds : Index → Signature} {c : Coordinator kinds} {i : Index}
  {commands : List (Command (kinds i))} {b : Batch (kinds i)} {limit : Nat}

/-- The events that a batch begins with may come one after another. -/
theorem lawful_dispatch (c : Coordinator kinds) (i : Index) (commands : List (Command (kinds i)))
    (limit : Nat) :
    Batch.Lawful commands limit (Notice.events (c.dispatch i commands limit).2) := by
  have hstarted : Batch.Lawful commands limit
      [.started (c.batches.length + 1) commands.length limit] :=
    Batch.lawful_singleton ⟨rfl, rfl, rfl⟩
  rw [events_dispatch]
  by_cases hn : commands = []
  · subst hn
    refine hstarted.append_singleton (e := .completed _ 0) ⟨by simp, rfl, rfl, fun k hk => ?_⟩
    exact absurd hk (Nat.not_lt_zero k)
  · rw [if_neg hn]
    split
    · exact hstarted
    · exact hstarted.append_singleton (e := .interrupted _ 0 _) ⟨by simp, rfl, rfl, rfl⟩

/-- So a batch that was just given keeps to the protocol. -/
theorem IsGiven.protocol (h : c.IsGiven commands limit b) :
    Batch.Protocol commands limit b (Notice.events (c.dispatch i commands limit).2) where
  lawful := lawful_dispatch c i commands limit
  started := by
    rw [events_dispatch, h.id]
    rfl
  dispatched := by
    rw [events_dispatch, h.entries]
    split
    · rfl
    · split <;> rfl
  itemDone k := by
    have hnone : ¬ b.HasTold k := by
      rintro ⟨e, he, -⟩
      simp [h.entries] at he
    rw [iff_false_right hnone, events_dispatch]
    split
    · simp [Batch.Event.itemDone?]
    · split <;> simp [Batch.Event.itemDone?]
  outcome hx := by
    rw [events_dispatch] at hx
    split at hx
    · simp at hx
    · split at hx <;> simp at hx
  ending := by
    have hrem : b.remaining = commands.length := by simpa [h.entries] using h.valid.remaining
    rw [events_dispatch]
    by_cases hn : commands = []
    · subst hn
      have hi : b.interrupted = false := Bool.eq_false_iff.2 fun hi => (h.interrupted.1 hi).1 rfl
      rw [Batch.ending?, h.valid.completed hi hrem]
      rfl
    · have hpos : 0 < b.remaining := hrem ▸ List.length_pos_iff.2 hn
      rw [if_neg hn]
      split
      · next hr =>
        have hi : b.interrupted = false :=
          Bool.eq_false_iff.2 fun hi => (h.interrupted.1 hi).2 hr
        rw [Batch.ending?, h.valid.pending hi hpos]
        rfl
      · next hr =>
        rw [Batch.ending?, (h.valid.interrupted (h.interrupted.2 ⟨hn, hr⟩)).2.2]
        rfl

/-- **The protocol of events.** -/
theorem batch_follows_protocol (hc : Reachable c) (i : Index)
    (commands : List (Command (kinds i))) (limit : Nat) (acts : List (Act kinds)) :
    let given := c.dispatch i commands limit
    let id := c.batches.length + 1
    let notices := given.2 ++ (given.1.run acts).2
    ∃ b, (given.1.run acts).1.batches[c.batches.length]? = some ⟨i, b⟩ ∧ b.id = id ∧
      Batch.Protocol commands limit b (eventsOf id notices) ∧
      -- observers, however nested, see these events
      ∀ o : Observer, (∀ e, o.notify e = o.leaves.flatMap (Observer.Leaf.notify e)) ∧
        ∀ n, ((o.sees (Notice.events notices)).filterMap
            (Observer.Sighting.recorded? n)).filter (·.batch = id) =
          (eventsOf id notices).flatMap
            (List.replicate (o.leaves.count (.recording n))) := by
  intro given id notices
  obtain ⟨b, hg, hhas⟩ := hc.exists_has i commands limit
  have hrun := hhas.run acts
  have htold : eventsOf id notices = Notice.events given.2 ++
      Notice.events (b.run (given.1.moves c.batches.length acts)).2 := by
    rw [eventsOf_append, eventsOf_run (hc.dispatch i commands limit) hhas.batch,
      eventsOf_eq_self fun e he => batch_of_event_dispatch he]
  have hid := ((hc.dispatch i commands limit).run acts).numbered.id_eq hrun.batch
  refine ⟨_, hrun.batch, hid, ?_, fun o => ⟨fun e => o.notify_eq e, fun n => ?_⟩⟩
  · rw [htold]
    exact hg.protocol.run hg.valid _
  · exact o.recorded_sees_batch _ n id

/-- The batch of echoes is interrupted while its first operation is out, whose item is done
later. -/
theorem batch_follows_protocol_echoes : ∃ b, Batch.Protocol echoes 1 b
    [.started 1 3 1, .dispatched 1 0 1, .interrupted 1 1 3, .itemDone 1 0 none] := by
  obtain ⟨b, -, -, hprotocol, -⟩ := batch_follows_protocol reachable_idle () echoes 1
    [.advance 0, .advance 0, .halt, .advance 0, .answer 0 (.reply (.empty 2)), .proceed 0 0]
  exact ⟨b, hprotocol⟩

end StoreClient.Coordinator
