import StoreClient.Proofs.Batch.Completion
import StoreClient.Proofs.Batch.Limit

/-!
# What a batch computes

The requests of a batch are those of its commands, in their order (`Valid.requests_run`). Once all
its items are done, its value has the `results` of the commands, which are told from the commands
and the answers alone (`Valid.gathered_perm_results`). So neither depends on how dispatching,
answers and listeners took turns.

With a limit of one, only the last of the entries holds a permit (`IsSequential`). Every item is
collected before the next command is handled, so that the value is in the order of the commands
(`Valid.gathered_eq_results`).
-/

namespace StoreClient

/-! ## Results -/

namespace Command

variable {σ : Signature}

/-- The request of the operation that the command makes, if it makes one. -/
def request? (c : Command σ) : Option Message :=
  match c.operation with
  | .ok op => some op.kind.request
  | .error _ => none

/-- The item of the command after these answers to its request, if it is done then. -/
def item? (c : Command σ) (index : Nat) (given : List Answer) : Option (Batch.Item σ) :=
  Batch.Entry.item? { c with operation := c.operation.map fun op => (op.execute given).1 } index

/-- An item stays, whatever is answered after it. -/
theorem item?_of_prefix {c : Command σ} {index : Nat} {item : Batch.Item σ}
    {given all : List Answer} (h : c.item? index given = some item) (hp : given <+: all) :
    c.item? index all = some item := by
  obtain ⟨later, rfl⟩ := hp
  unfold item? Batch.Entry.item? Batch.Entry.outcome? Batch.Entry.subject at h ⊢
  cases hop : c.operation with
  | error x =>
    rw [hop] at h
    exact h
  | ok op =>
    simp only [hop, Except.map, Option.map_eq_some_iff, Operation.execute] at h ⊢
    obtain ⟨x, hx, rfl⟩ := h
    rw [Operation.answerAll_append]
    exact ⟨x, Operation.outcome_answerAll_of_some hx later, by simp⟩

end Command

namespace Batch

variable {σ : Signature} {commands : List (Command σ)} {b : Batch σ}

/-- The items of the commands that are done after the answers `given k` to the request of each
command `k`, in the order of the commands. -/
def results (commands : List (Command σ)) (given : Nat → List Answer) : List (Item σ) :=
  (List.range commands.length).filterMap fun k => commands[k]?.bind (·.item? k (given k))

theorem mem_results {given : Nat → List Answer} {item : Item σ} : item ∈ results commands given ↔
    ∃ c, commands[item.index]? = some c ∧ c.item? item.index (given item.index) = some item := by
  unfold results
  rw [List.mem_filterMap]
  constructor
  · rintro ⟨k, -, hk⟩
    obtain ⟨c, hc, hitem⟩ := Option.bind_eq_some_iff.1 hk
    obtain rfl : item.index = k := Entry.index_of_item? hitem
    exact ⟨c, hc, hitem⟩
  · rintro ⟨c, hc, hitem⟩
    refine ⟨item.index, List.mem_range.2 (List.getElem?_eq_some_iff.1 hc).1, ?_⟩
    rw [hc]
    exact hitem

/-- The results are in the order of the commands. -/
theorem pairwise_results (commands : List (Command σ)) (given : Nat → List Answer) :
    (results commands given).Pairwise fun x y => x.index < y.index := by
  unfold results
  refine List.Pairwise.filterMap _ ?_ List.pairwise_lt_range
  intro k k' hlt x hx y hy
  obtain ⟨c, -, hx⟩ := Option.bind_eq_some_iff.1 hx
  obtain ⟨c', -, hy⟩ := Option.bind_eq_some_iff.1 hy
  rw [Entry.index_of_item? hx, Entry.index_of_item? hy]
  exact hlt

theorem nodup_results (commands : List (Command σ)) (given : Nat → List Answer) :
    (results commands given).Nodup := by
  refine (pairwise_results commands given).imp ?_
  rintro x y hlt rfl
  exact Nat.lt_irrefl _ hlt

/-- The entries are those of the commands after the answers `given k` to the request of each command
`k`. -/
def IsAnswered (commands : List (Command σ)) (b : Batch σ) (given : Nat → List Answer) : Prop :=
  ∀ ⦃k : Nat⦄ ⦃e : Entry σ⦄, b.entries[k]? = some e → ∃ c, commands[k]? = some c ∧
    e.operation = c.operation.map fun op => (op.execute (given k)).1

namespace Valid

/-- The item of an entry is that of its command. -/
theorem item?_eq (h : Valid commands b) {given : Nat → List Answer}
    (ha : b.IsAnswered commands given) {k : Nat} {e : Entry σ} (he : b.entries[k]? = some e) :
    ∃ c, commands[k]? = some c ∧ e.item? k = c.item? k (given k) := by
  obtain ⟨c, hc, hop⟩ := ha he
  obtain ⟨c', hc', hquery, -⟩ := h.isOf he
  obtain rfl : c = c' := Option.some.inj (hc.symm.trans hc')
  refine ⟨c, hc, ?_⟩
  unfold Command.item? Entry.item? Entry.outcome? Entry.subject
  rw [hop, hquery]

/-- **The value of a batch has the results of its commands.** -/
theorem gathered_perm_results (h : Valid commands b) (hr : b.remaining = 0)
    {given all : Nat → List Answer} (ha : b.IsAnswered commands given)
    (hp : ∀ k, given k <+: all k) : b.gathered.Perm (results commands all) := by
  have hg := h.gathered (h.interrupted_eq_false_of_remaining hr)
  have hthrough := h.remaining_eq_zero_iff.1 hr
  refine (List.perm_ext_iff_of_nodup hg.nodup.of_map (nodup_results commands all)).2 fun item => ?_
  rw [hg.mem_iff, mem_results]
  constructor
  · rintro ⟨e, he, -, hitem⟩
    obtain ⟨c, hc, heq⟩ := h.item?_eq ha he
    rw [heq] at hitem
    exact ⟨c, hc, Command.item?_of_prefix hitem (hp _)⟩
  · rintro ⟨c, hc, hitem⟩
    obtain ⟨e, he, hs⟩ := hthrough _ (List.getElem?_eq_some_iff.1 hc).1
    obtain ⟨c', hc', heq⟩ := h.item?_eq ha he
    obtain rfl : c = c' := Option.some.inj (hc.symm.trans hc')
    have hsome := (h.fits he).isSome (by simp [hs]) (by simp [hs])
    obtain ⟨item', hitem'⟩ := Entry.isSome_item? hsome item.index
    -- The item is there by now, and later answers do not change it.
    have hlater := Command.item?_of_prefix (heq ▸ hitem') (hp _)
    rw [hitem, Option.some.injEq] at hlater
    refine ⟨e, he, ?_, ?_⟩
    · rw [hs]
      rfl
    · rw [hitem', hlater]

end Valid

/-! ## Requests -/

theorem requests_complete (b : Batch σ) : Notice.requests b.complete.2 = [] := by
  unfold complete
  dsimp only
  split <;> simp

theorem requests_interrupt (b : Batch σ) : Notice.requests b.interrupt.2 = [] := by
  unfold interrupt
  dsimp only
  split <;> simp

theorem requests_handle (b : Batch σ) (ordinal : Nat) (c : Command σ) :
    Notice.requests (b.handle ordinal c).2 = c.request?.toList := by
  unfold handle Command.request?
  cases c.operation <;> rfl

/-- A request is made where a command is handled that makes an operation. -/
theorem Step.requests {m : Move} {r : Batch σ × List Notice} (hs : Step b m r) :
    Notice.requests r.2 =
      if b.handles m then (b.rest.head?.bind Command.request?).toList else [] := by
  cases hs with
  | stop hc hs =>
    rw [requests_interrupt, handles_of_stops hs]
    rfl
  | @handle ordinal permits c rest hc hl hr ht =>
    have hm : b.handles (.advance false ordinal) = true := by simp [handles, hc, hl, hr, ht]
    rw [requests_handle, hm, hr]
    rfl
  | count he hs =>
    unfold Batch.count
    dsimp only
    split
    · exact requests_complete _
    · rfl
  | _ => simp_all [handles, Batch.listen]

namespace Valid

/-- **The requests of a batch are those of its commands**, in their order, as far as they were
handled. -/
theorem requests_run (h : Valid commands b) (ms : List Move) :
    (commands.take b.entries.length).filterMap Command.request? ++ Notice.requests (b.run ms).2 =
      (commands.take (b.run ms).1.entries.length).filterMap Command.request? := by
  induction ms generalizing b with
  | nil => simp [Batch.run]
  | cons m ms ih =>
    rw [show (b.run (m :: ms)).2 = (b.perform m).2 ++ ((b.perform m).1.run ms).2 from rfl,
      show (b.run (m :: ms)).1 = ((b.perform m).1.run ms).1 from rfl, ← ih (h.perform m),
      Notice.requests_append, (step_perform b m).requests, length_perform, ← List.append_assoc]
    cases b.handles m with
    | false => simp
    | true =>
      rw [if_pos rfl, Bool.toNat_true, List.take_add_one, List.filterMap_append, h.rest,
        List.head?_drop]
      cases commands[b.entries.length]? with
      | none => rfl
      | some c => cases hc : c.request? <;> simp [hc]

end Valid

/-! ## One item at a time -/

/-- Only the last entry can hold a permit. -/
def IsSequential (b : Batch σ) : Prop :=
  ∀ k, b.HasStage (·.holdsPermit = true) k → k + 1 = b.entries.length

namespace Valid

/-- Without a command that is handled, nobody gets a permit. -/
theorem holdsPermit_of_step (h : Valid commands b) {m : Move} {r : Batch σ × List Notice}
    (hs : Step b m r) (hm : b.handles m = false) {k : Nat}
    (hk : r.1.HasStage (·.holdsPermit = true) k) : b.HasStage (·.holdsPermit = true) k := by
  have hsame (he : r.1.entries = b.entries) : b.HasStage (·.holdsPermit = true) k := by
    obtain ⟨e, hx, hstage⟩ := hk
    exact ⟨e, he ▸ hx, hstage⟩
  cases hs with
  | stop hc hs => exact hsame (interrupt_fields _).2.2
  | handle hc hl hr ht => simp [handles, hc, hl, hr, ht] at hm
  | watch hc =>
    revert hk
    unfold Batch.watch
    split
    · intro hk
      exact hk
    · next e he =>
      have hstage := h.submitting hc he
      dsimp only
      split <;> exact hasStage_of_set he rfl fun _ => by rw [hstage]; rfl
  | @answer index a e he =>
    refine hasStage_of_set he rfl ?_ hk
    intro hholds
    rcases e.stage_answer a with hstage | ⟨hstage, -⟩
    · rwa [hstage] at hholds
    · rw [hstage]
      rfl
  | report he hst => exact hasStage_of_set he rfl (fun _ => by rw [hst]; rfl) hk
  | collect he hst => exact hasStage_of_set he rfl (fun _ => by rw [hst]; rfl) hk
  | release he hst =>
    refine hasStage_of_set he rfl ?_ hk
    intro hholds
    cases hholds
  | count he hst =>
    refine hasStage_of_set he (count_fields _ _).2.2 ?_ hk
    intro hholds
    cases hholds
  | _ => exact hsame rfl

/-- With a limit of one, nobody holds a permit where the next command is handled. -/
theorem holdsPermit_of_handles (h : Valid commands b) (hl : b.limit = 1) {m : Move}
    (hm : b.handles m = true) : ∀ e ∈ b.entries, e.stage.holdsPermit = false := by
  have hs := step_perform b m
  generalize b.perform m = r at hs
  cases hs with
  | @handle ordinal permits c rest hc hl' hr ht =>
    have hheld := h.held
    have htaken := (Permits.unheld_of_take ht).1
    have hnone : b.entries.countP (·.stage.holdsPermit) = 0 := by omega
    intro e he
    simpa using List.countP_eq_zero.1 hnone e he
  | stop hc hs => simp [handles_of_stops hs] at hm
  | _ => simp_all [handles]

/-- With a limit of one, all items are collected where the next command is handled. -/
theorem collected_of_handles (h : Valid commands b) (hl : b.limit = 1) {m : Move}
    (hm : b.handles m = true) {k : Nat} (hk : k < b.entries.length) :
    ∃ e, b.entries[k]? = some e ∧ e.outcome?.isSome = true ∧ e.stage.hasCollected = true := by
  have he := List.getElem?_eq_getElem hk
  have hfree := h.holdsPermit_of_handles hl hm _ (List.getElem_mem hk)
  refine ⟨_, he, (h.fits he).isSome ?_ ?_, ?_⟩
  · intro hs
    rw [hs] at hfree
    cases hfree
  · intro hs
    rw [hs] at hfree
    cases hfree
  · cases hs : b.entries[k].stage <;> simp_all [Stage.holdsPermit, Stage.hasCollected]

theorem isSequential_step (h : Valid commands b) (hl : b.limit = 1) {m : Move}
    {r : Batch σ × List Notice} (hs : Step b m r) (hb : b.IsSequential) : r.1.IsSequential := by
  intro k hk
  cases hm : b.handles m with
  | false =>
    have hlen := hs.grows.length
    rw [hm, Bool.toNat_false, Nat.add_zero] at hlen
    rw [hlen]
    exact hb k (h.holdsPermit_of_step hs hm hk)
  | true =>
    have hfree := h.holdsPermit_of_handles hl hm
    obtain ⟨ordinal, permits, c, rest, -, -, rfl⟩ := hs.eq_of_handles hm
    obtain ⟨e, he, hholds⟩ := hk
    rw [handle_fields] at he ⊢
    rcases getElem?_append_singleton_cases he with ⟨rfl, -⟩ | he
    · rw [List.length_append, List.length_singleton]
    · rw [hfree e (List.mem_of_getElem? he)] at hholds
      cases hholds

/-- A listener collects at most one item, where it has told the observer of it. -/
theorem collects_cases (b : Batch σ) (m : Move) :
    b.collects m = [] ∨ ∃ k e, b.collects m = [k] ∧ b.entries[k]? = some e ∧
      e.stage = .reported := by
  cases m with
  | proceed index =>
    simp only [collects]
    split
    · next e he =>
      split
      · next hs => exact .inr ⟨index, e, rfl, he, hs⟩
      · exact .inl rfl
    · exact .inl rfl
  | _ => exact .inl rfl

/-- What a listener collects then comes after all that was collected before. -/
theorem pairwise_gathered_step (h : Valid commands b) {m : Move} {r : Batch σ × List Notice}
    (hs : Step b m r) (hr : Valid commands r.1) (hi : r.1.interrupted = false)
    (hb : b.IsSequential) (hord : (b.gathered.map (·.index)).Pairwise (· < ·)) :
    (r.1.gathered.map (·.index)).Pairwise (· < ·) := by
  have hbefore : b.interrupted = false := by
    have hint := h.interrupted_step hs
    rw [hi, eq_comm, Bool.or_eq_false_iff] at hint
    exact hint.1
  have hnodup := (hr.gathered hi).nodup
  rw [h.gathered_step hs hi] at hnodup ⊢
  rcases collects_cases b m with hnone | ⟨k, e, hone, he, hstage⟩
  · rwa [hnone, List.append_nil]
  · rw [hone] at hnodup ⊢
    have hlast : k + 1 = b.entries.length := hb k ⟨e, he, by rw [hstage]; rfl⟩
    refine List.pairwise_append.2 ⟨hord, List.pairwise_singleton _ k, ?_⟩
    intro x hx y hy
    obtain rfl : y = k := List.mem_singleton.1 hy
    have hne : x ≠ y := (List.nodup_append.1 hnodup).2.2 x hx y hy
    obtain ⟨item, hitem, rfl⟩ := List.mem_map.1 hx
    obtain ⟨e', he', -⟩ := ((h.gathered hbefore).mem_iff item).1 hitem
    have hlt := (List.getElem?_eq_some_iff.1 he').1
    omega

/-- So with a limit of one, items are collected in the order of their commands. -/
theorem pairwise_gathered_run (h : Valid commands b) (hl : b.limit = 1) (hb : b.IsSequential)
    (hord : (b.gathered.map (·.index)).Pairwise (· < ·)) (ms : List Move)
    (hi : (b.run ms).1.interrupted = false) :
    ((b.run ms).1.gathered.map (·.index)).Pairwise (· < ·) := by
  induction ms generalizing b with
  | nil => exact hord
  | cons m ms ih =>
    have hs := step_perform b m
    have hm : (b.perform m).1.interrupted = false := by
      refine Bool.eq_false_iff.2 fun hm => ?_
      have hlater := ((h.perform m).run_of_interrupted hm ms).1
      rw [show ((b.perform m).1.run ms).1 = (b.run (m :: ms)).1 from rfl, hi] at hlater
      cases hlater
    exact ih (h.perform m) ((limit_perform b m).trans hl) (h.isSequential_step hl hs hb)
      (h.pairwise_gathered_step hs (h.perform m) hm hb hord) hi

/-- **With a limit of one, the value of a batch is the results of its commands.** -/
theorem gathered_eq_results (hperm : b.gathered.Perm (results commands given))
    (hord : (b.gathered.map (·.index)).Pairwise (· < ·)) :
    b.gathered = results commands given := by
  refine hperm.eq_of_pairwise ?_ (List.pairwise_map.1 hord) (pairwise_results commands given)
  intro x y _ _ hlt hgt
  exact absurd hlt (Nat.lt_asymm hgt)

end Valid

end Batch

end StoreClient
