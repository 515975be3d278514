import StoreClient.Proofs.Coordinator.Liveness

/-!
# Completeness of batches

`batch_accounts` is about a batch that is given to a coordinator with a runtime, and then not
disturbed: nobody halts the coordinator or gives up the dispatching of the batch. Whatever else
happens, in whatever order, the batch `Accounts` for its commands at every time, and an outcome that
it has stays. If the run is fair to the batch, it has a value some time, and the transport took the
request of every command that makes one by then, once. Where listeners run one at a time, the items
are in the order in which observers were told of them.
-/

namespace StoreClient.Coordinator

variable {Index : Type} {kinds : Index → Signature} {c : Coordinator kinds} {p : Nat} {i : Index}
  {commands : List (Command (kinds i))} {b : Batch (kinds i)}

/-! ## The order of the items -/

/-- The positions of the items of a batch in the order in which their listeners collect them. -/
def order (c : Coordinator kinds) (p : Nat) : List (Act kinds) → List Nat
  | [] => []
  | a :: acts =>
    (match c.batches[p]?, a.move? c p with
      | some ⟨_, b⟩, some m => b.collects m
      | _, _ => []) ++ (c.perform a).1.order p acts

theorem order_eq (hb : c.batches[p]? = some ⟨i, b⟩) (acts : List (Act kinds)) :
    c.order p acts = b.order (c.moves p acts) := by
  induction acts generalizing c b with
  | nil => rfl
  | cons a acts ih =>
    have hnext := batch_perform hb a
    cases hm : a.move? c p with
    | none =>
      rw [hm] at hnext
      simp only [order, hb, hm, moves, ih hnext, List.nil_append, Option.toList_none]
      rfl
    | some m =>
      rw [hm] at hnext
      simp only [order, hb, hm, moves, ih hnext, Option.toList_some]
      rfl

/-- While listeners run one at a time, observers are told of the items as they are gathered. -/
theorem announced_after (h : c.Has p commands b) (hu : c.Undisturbed b)
    {acts : Nat → Act kinds} (ha : ∀ t, (acts t).Lets p) (hb : b.Announced []) {t : Nat}
    (hser : ∀ u < t, ∀ x : Batch (kinds i), (c.after acts u).batches[p]? = some ⟨i, x⟩ →
      x.IsSerial) :
    (b.run (c.moves p (firsts acts t))).1.Announced
      ((Notice.events (b.run (c.moves p (firsts acts t))).2).filterMap
        Batch.Event.itemDone?) := by
  induction t with
  | zero => exact hb
  | succ t ih =>
    have hprev := ih fun u hut => hser u (Nat.lt_succ_of_lt hut)
    have hhas := h.run (firsts acts t)
    have hund := hu.run h (forall_mem_firsts ha (t + 1))
    have hserial := hser t (Nat.lt_succ_self t) _ hhas.batch
    rw [firsts_succ, moves_append, Batch.run_append] at hund
    rw [firsts_succ, moves_append, Batch.run_append, Batch.notices_run_append]
    generalize (b.run (c.moves p (firsts acts t))).2 = told at hprev ⊢
    generalize (b.run (c.moves p (firsts acts t))).1 = x at hprev hhas hund hserial ⊢
    cases hm : (acts t).move? (c.run (firsts acts t)).1 p with
    | none => simpa [moves, hm, Batch.run] using hprev
    | some m =>
      have hs := Batch.step_perform x m
      have hi : (x.perform m).1.interrupted = false := by
        simpa [moves, hm, Batch.run] using hund.interrupted
      have := hhas.valid.announced_step hs hi hserial hprev
      rw [← hs.itemDone_events, ← List.filterMap_append, ← Notice.events_append] at this
      simpa [moves, hm, Batch.run] using this

/-! ## Completeness -/

/-- The events of a batch from when it is given until after the first `t` of the acts that follow.
-/
def history (c : Coordinator kinds) (i : Index) (commands : List (Command (kinds i)))
    (limit : Nat) (acts : Nat → Act kinds) (t : Nat) : List Batch.Event :=
  let given := c.dispatch i commands limit
  eventsOf (c.batches.length + 1) (given.2 ++ (given.1.run (firsts acts t)).2)

/-- A batch that a coordinator with a runtime is given can be dispatched undisturbed. -/
theorem undisturbed_dispatch {limit : Nat} (hlive : c.runtime = .live) (hh : c.halted = false)
    (hmax : limit ≤ Batch.maxPermits) (hg : c.IsGiven commands limit b) :
    (c.dispatch i commands limit).1.Undisturbed b where
  halted := (halted_dispatch c i commands limit).trans hh
  interrupted := Bool.eq_false_iff.2 fun hi => (hg.interrupted.1 hi).2 hlive
  limit_le := hg.limit ▸ hmax

theorem history_eq {limit : Nat} (hc : Reachable c) (hlive : c.runtime = .live)
    (hhas : (c.dispatch i commands limit).1.Has c.batches.length commands b)
    (acts : Nat → Act kinds) (t : Nat) : c.history i commands limit acts t =
      .started (c.batches.length + 1) commands.length limit ::
        ((if commands = [] then [.completed (c.batches.length + 1) 0] else []) ++
          Notice.events (b.run ((c.dispatch i commands limit).1.moves c.batches.length
            (firsts acts t))).2) := by
  unfold history
  dsimp only
  rw [eventsOf_append, eventsOf_run (hc.dispatch i commands limit) hhas.batch,
    eventsOf_eq_self fun e he => batch_of_event_dispatch he, events_dispatch]
  simp [hlive]

/-- Observers are told once that a batch is complete: at once if it has no commands, and else as
soon as nothing remains. -/
theorem completed_history {limit : Nat} (hc : Reachable c) (hlive : c.runtime = .live)
    (hg : c.IsGiven commands limit b)
    (hhas : (c.dispatch i commands limit).1.Has c.batches.length commands b)
    (acts : Nat → Act kinds) (t : Nat) :
    (c.history i commands limit acts t).filterMap Batch.Event.completed? =
      if (b.run ((c.dispatch i commands limit).1.moves c.batches.length
        (firsts acts t))).1.remaining ≠ 0 then [] else [commands.length] := by
  have hrem : b.remaining = commands.length := by
    have := hg.valid.remaining
    simpa [hg.entries] using this
  have hle := Batch.remaining_run_le b
    ((c.dispatch i commands limit).1.moves c.batches.length (firsts acts t))
  rw [history_eq hc hlive hhas, List.filterMap_cons, List.filterMap_append,
    hg.valid.completed_run, hrem]
  by_cases hn : commands = []
  · subst hn
    have hz := Nat.le_zero.1 (Nat.le_trans hle (Nat.le_of_eq hrem))
    simp [hz, Batch.Event.completed?]
  · have hlen : commands.length ≠ 0 := fun hl => hn (List.length_eq_zero_iff.1 hl)
    simp only [hn, if_false, List.filterMap_nil, List.nil_append, ne_eq, hlen, not_false_eq_true,
      true_and, ite_not]
    rfl

theorem itemDone_history {limit : Nat} (hc : Reachable c) (hlive : c.runtime = .live)
    (hhas : (c.dispatch i commands limit).1.Has c.batches.length commands b)
    (acts : Nat → Act kinds) (t : Nat) :
    (c.history i commands limit acts t).filterMap Batch.Event.itemDone? =
      (Notice.events (b.run ((c.dispatch i commands limit).1.moves c.batches.length
        (firsts acts t))).2).filterMap Batch.Event.itemDone? := by
  rw [history_eq hc hlive hhas, List.filterMap_cons, List.filterMap_append]
  by_cases hn : commands = [] <;> simp [hn, Batch.Event.itemDone?]

/-- **Completeness of batches.** -/
theorem batch_accounts (hc : Reachable c) (hlive : c.runtime = .live) (hh : c.halted = false)
    (i : Index) (commands : List (Command (kinds i))) {limit : Nat} (hpos : 0 < limit)
    (hmax : limit ≤ Batch.maxPermits) (acts : Nat → Act kinds)
    (ha : ∀ t, (acts t).Lets c.batches.length) :
    let given := (c.dispatch i commands limit).1
    let p := c.batches.length
    (∀ t, ∃ b, (given.after acts t).batches[p]? = some ⟨i, b⟩ ∧
      b.Accounts commands (given.order p (firsts acts t))
        (c.history i commands limit acts t) ∧
      (given.after acts t).submitted p = buildable commands b.entries.length ∧
      (∀ u x, t ≤ u → b.aggregate.outcome = some x → ∀ b',
        (given.after acts u).batches[p]? = some ⟨i, b'⟩ → b'.aggregate.outcome = some x) ∧
      ((∀ u < t, ∀ x : Batch (kinds i), (given.after acts u).batches[p]? = some ⟨i, x⟩ →
          x.IsSerial) → (∀ k < commands.length, b.IsThrough k) →
        given.order p (firsts acts t) =
          (c.history i commands limit acts t).filterMap Batch.Event.itemDone?)) ∧
    (given.IsFair p acts → ∃ t b, (given.after acts t).batches[p]? = some ⟨i, b⟩ ∧
      (∀ k < commands.length, b.IsThrough k) ∧
      (given.after acts t).submitted p = buildable commands commands.length) := by
  intro given p
  obtain ⟨b, hg, hhas⟩ := hc.exists_has i commands limit
  have hu := undisturbed_dispatch hlive hh hmax hg
  have hhas' : ∀ t, (given.after acts t).Has p commands (given.batchAfter p b acts t) :=
    hhas.after acts
  have hund : ∀ t, (given.after acts t).Undisturbed (given.batchAfter p b acts t) := fun t =>
    hu.run hhas (forall_mem_firsts ha t)
  have hnil : b.gathered = [] := hg.valid.gathered_eq_nil hu.interrupted hg.entries
  have hgath : ∀ t, (given.batchAfter p b acts t).gathered.map (·.index) =
      given.order p (firsts acts t) := by
    intro t
    have := hg.valid.gathered_run (given.moves p (firsts acts t)) (hund t).interrupted
    rw [hnil, List.map_nil, List.nil_append] at this
    rw [order_eq hhas.batch]
    exact this
  refine ⟨fun t => ⟨_, (hhas' t).batch, ?_, (hhas' t).submitted, ?_, ?_⟩, fun hfair => ?_⟩
  · exact (hhas' t).valid.accounts (hund t).interrupted (hgath t)
      (completed_history hc hlive hg hhas acts t)
  · intro u x htu hx b' hb'
    rw [(hhas' u).batch] at hb'
    cases hb'
    exact outcome_batchAfter_of_some hx htu
  · intro hser hall
    have hr := (hhas' t).valid.remaining_eq_zero_iff.2 hall
    have htold := announced_after hhas hu ha (Batch.announced_nil hnil hg.entries) hser
    rw [itemDone_history hc hlive hhas, ← hgath, (hhas' t).valid.told_eq hr htold]
  · obtain ⟨t, ht⟩ := hhas.exists_remaining_eq_zero (hg.limit ▸ hpos) hu.limit_le hfair
      fun t => (hund t).interrupted
    have hall := (hhas' t).valid.remaining_eq_zero_iff.1 ht
    refine ⟨t, _, (hhas' t).batch, hall, ?_⟩
    rw [(hhas' t).submitted, (hhas' t).valid.length_eq_of_remaining ht]

/-! ## A batch of echoes -/

/-- The acts that make the batch of echoes complete: the first operation is answered while it is
submitted, the last one later, by a failure. -/
def echoScript : List (Act fun _ : Unit => ⟨Unit, Nat, Nat⟩) :=
  [.advance 0, .answer 0 (.reply (.empty 2)), .advance 0] ++ listenerActs 0 0 ++
    [.advance 0, .advance 0] ++ listenerActs 0 1 ++
    [.advance 0, .advance 0, .answer 1 (.failure (.transport ""))] ++ listenerActs 0 2

def echoActs (t : Nat) : Act fun _ : Unit => ⟨Unit, Nat, Nat⟩ := echoScript.getD t (.advance 0)

/-- The coordinator when the batch of echoes is complete. -/
def finished : Coordinator (fun _ : Unit => ⟨Unit, Nat, Nat⟩) :=
  ((idle.dispatch () echoes 1).1.run echoScript).1

theorem finished_of_step {a : Act fun _ : Unit => ⟨Unit, Nat, Nat⟩} (ha : a.IsStepOf 0) :
    (finished.perform a).1 = finished := by
  cases a with
  | advance q =>
    obtain rfl : q = 0 := ha
    rfl
  | proceed q k =>
    obtain rfl : q = 0 := ha
    match k with
    | 0 | 1 | 2 => rfl
    | k + 3 => rfl
  | _ => cases ha

/-- Nothing changes after the script. -/
theorem after_echoActs (n : Nat) :
    (idle.dispatch () echoes 1).1.after echoActs (echoScript.length + n) = finished := by
  induction n with
  | zero =>
    have hscript : firsts echoActs echoScript.length = echoScript := rfl
    rw [Nat.add_zero, after, hscript]
    rfl
  | succ n ih =>
    have hlast : echoActs (echoScript.length + n) = .advance 0 := by
      unfold echoActs
      rw [List.getD_eq_getElem?_getD, List.getElem?_eq_none (Nat.le_add_right _ n)]
      rfl
    unfold after at ih ⊢
    rw [← Nat.add_assoc, firsts_succ, run_append, ih, hlast]
    simp only [run]
    exact finished_of_step (a := .advance 0) rfl

theorem isFair_echoActs : (idle.dispatch () echoes 1).1.IsFair 0 echoActs where
  goesOn a t ha henabled := by
    have hu := henabled (echoScript.length + t) (Nat.le_add_left t _)
    rw [after_echoActs] at hu
    exact absurd (finished_of_step ha) hu
  resolves t k hk := by
    refine ⟨echoScript.length + t, Nat.le_add_left t _, ?_⟩
    rw [after_echoActs]
    obtain ⟨b, -, hhas⟩ := reachable_idle.exists_has () echoes 1
    have hrun := hhas.run (firsts echoActs t)
    have hk : k ∈ buildable echoes _ := hrun.submitted ▸ hk
    have hlt : k < 3 := Nat.lt_of_lt_of_le (List.mem_range.1 (List.mem_filter.1 hk).1)
      hrun.valid.length_le
    match k, hlt with
    | 0, _ | 1, _ | 2, _ => exact ⟨(), _, _, rfl, rfl, rfl⟩

theorem lets_echoActs (t : Nat) : (echoActs t).Lets 0 := by
  have hscript : ∀ a ∈ echoScript, a.Lets 0 := by
    simp [echoScript, listenerActs, Act.Lets, Batch.listenerSteps]
  unfold echoActs
  rw [List.getD_eq_getElem?_getD]
  cases ha : echoScript[t]? with
  | none => exact trivial
  | some a => exact hscript a (List.mem_of_getElem? ha)

theorem batch_accounts_echoes :
    ∃ t b, ((idle.dispatch () echoes 1).1.after echoActs t).batches[0]? = some ⟨(), b⟩ ∧
      (∀ k < 3, b.IsThrough k) ∧
      ((idle.dispatch () echoes 1).1.after echoActs t).submitted 0 = [0, 2] :=
  (batch_accounts reachable_idle rfl rfl () echoes (by decide) (by decide) echoActs
    lets_echoActs).2 isFair_echoActs

end StoreClient.Coordinator
