import StoreClient.Proofs.Coordinator.Liveness

/-!
# Interrupted batches of a coordinator

`batch_interruption` is about a batch with commands that is given to a coordinator, after any acts
whatever. The batch has failed if there was no runtime for it, or if one of the acts was an
interruption (`Interrupts`): its dispatching found the coordinator halted, or was given up, while
commands were left. The failure tells how many commands had been handled; no other is handled, and
the failure stays. Each operation takes the answers to its own request, whatever became of the batch
(`Answered.run`).
-/

namespace StoreClient.Coordinator

variable {Index : Type} {kinds : Index → Signature} {c : Coordinator kinds} {p : Nat} {i : Index}
  {commands : List (Command (kinds i))} {b : Batch (kinds i)}

/-! ## Interruptions -/

/-- At the act, the dispatching of a batch with commands left finds the coordinator halted, or is
given up. -/
def Interrupts (c : Coordinator kinds) (p total : Nat) (a : Act kinds) : Prop :=
  ∃ (i : Index) (b : Batch (kinds i)), c.batches[p]? = some ⟨i, b⟩ ∧ b.control = .ready ∧
    b.entries.length < total ∧ (a = .advance p ∧ c.halted = true ∨ a = .abandon p)

/-- An act interrupts a batch if dispatching stops at its move. -/
theorem interrupts_iff (h : c.Has p commands b) (hl : b.limit ≤ Batch.maxPermits) (a : Act kinds) :
    c.Interrupts p commands.length a ↔ ∃ m, a.move? c p = some m ∧ b.stops m = true := by
  constructor
  · rintro ⟨j, x, hx, hc, -, ha⟩
    rw [h.batch] at hx
    cases hx
    have hm : ∃ m, a.move? c p = some m := by
      rcases ha with ⟨rfl, -⟩ | rfl <;> exact ⟨_, if_pos rfl⟩
    obtain ⟨m, hm⟩ := hm
    exact ⟨m, hm, (stops_iff hl hm).2 ⟨hc, ha⟩⟩
  · rintro ⟨m, hm, hs⟩
    obtain ⟨hc, ha⟩ := (stops_iff hl hm).1 hs
    exact ⟨i, b, h.batch, hc, h.valid.ready hc, ha⟩

/-- After any acts, a batch is interrupted if it was before them, or if one of them was an
interruption. -/
theorem interrupted_run_iff (h : c.Has p commands b) (hl : b.limit ≤ Batch.maxPermits)
    (acts : List (Act kinds)) :
    (b.run (c.moves p acts)).1.interrupted = true ↔ b.interrupted = true ∨
      ∃ before a after, acts = before ++ a :: after ∧
        (c.run before).1.Interrupts p commands.length a := by
  induction acts generalizing c b with
  | nil => simp [moves, Batch.run]
  | cons a acts ih =>
    have hnext := h.perform a
    have hl' : (b.run (a.move? c p).toList).1.limit ≤ Batch.maxPermits := by simpa using hl
    have hint : (b.run (a.move? c p).toList).1.interrupted = true ↔
        b.interrupted = true ∨ c.Interrupts p commands.length a := by
      rw [interrupts_iff h hl]
      cases hm : a.move? c p with
      | none => simp [Batch.run]
      | some m =>
        have := h.valid.interrupted_step (Batch.step_perform b m)
        simp [Batch.run, this]
    rw [moves, Batch.run_append, ih hnext hl', hint]
    constructor
    · rintro ((hb | ha) | ⟨before, x, after, rfl, hx⟩)
      · exact .inl hb
      · exact .inr ⟨[], a, acts, rfl, ha⟩
      · exact .inr ⟨a :: before, x, after, rfl, hx⟩
    · rintro (hb | ⟨before, x, after, heq, hx⟩)
      · exact .inl (.inl hb)
      · cases before with
        | nil =>
          cases heq
          exact .inl (.inr hx)
        | cons y before =>
          cases heq
          exact .inr ⟨before, x, after, rfl, hx⟩

/-! ## Operations -/

/-- What an act answers to the request of a command. -/
def Act.answersTo (c : Coordinator kinds) (p k : Nat) : Act kinds → List Answer
  | .answer ordinal x => if c.submissions[ordinal]? = some (p, k) then [x] else []
  | _ => []

/-- The answers that acts give to the request of a command. -/
def answersTo (c : Coordinator kinds) (p k : Nat) : List (Act kinds) → List Answer
  | [] => []
  | a :: acts => a.answersTo c p k ++ (c.perform a).1.answersTo p k acts

theorem answersTo_move? (c : Coordinator kinds) (p k : Nat) (a : Act kinds) :
    a.answersTo c p k = Batch.answersTo k (a.move? c p).toList := by
  cases hm : a.move? c p with
  | none =>
    cases a with
    | answer ordinal x =>
      have hs : c.submissions[ordinal]? ≠ some (p, k) := by
        intro hs
        simp [Act.move?, hs] at hm
      simp [Act.answersTo, Batch.answersTo, hs]
    | _ => rfl
  | some m =>
    rcases move?_cases hm with ⟨rfl, rfl⟩ | ⟨ordinal, x, j, rfl, hs, rfl⟩ | ⟨j, rfl, rfl⟩ |
      ⟨rfl, rfl⟩ | ⟨l, rfl, rfl⟩
    · rfl
    · by_cases hj : j = k <;> simp [Act.answersTo, Batch.answersTo, hs, hj]
    · rfl
    · rfl
    · rfl

/-- Only requests that the transport took are answered. -/
theorem answersTo_eq_nil (h : c.Has p commands b) {k : Nat} (hk : b.entries[k]? = none)
    (a : Act kinds) : a.answersTo c p k = [] := by
  cases a with
  | answer ordinal x =>
    have hs : c.submissions[ordinal]? ≠ some (p, k) := by
      intro hs
      have hmem : k ∈ c.submitted p :=
        List.mem_filterMap.2 ⟨(p, k), List.mem_of_getElem? hs, by simp⟩
      rw [h.submitted, buildable, List.mem_filter, List.mem_range] at hmem
      rw [List.getElem?_eq_none_iff] at hk
      exact Nat.lt_irrefl _ (Nat.lt_of_lt_of_le hmem.1 hk)
    simp [Act.answersTo, hs]
  | _ => rfl

/-- Every operation of a batch is that of its command after the answers given to its request, and no
other request was answered. -/
structure Answered (commands : List (Command (kinds i))) (b : Batch (kinds i))
    (given : Nat → List Answer) : Prop where
  none : ∀ {k : Nat}, b.entries[k]? = none → given k = []
  some : ∀ {k : Nat} {e : Batch.Entry (kinds i)}, b.entries[k]? = some e →
    ∃ x, commands[k]? = some x ∧ e.operation = x.operation.map fun op => (op.execute (given k)).1

theorem Answered.perform {given : Nat → List Answer} (ha : Answered commands b given)
    (h : c.Has p commands b) (a : Act kinds) :
    Answered commands (b.run (a.move? c p).toList).1 fun k => given k ++ a.answersTo c p k := by
  have hto : ∀ k, a.answersTo c p k = Batch.answersTo k (a.move? c p).toList := fun k =>
    answersTo_move? c p k a
  cases hm : a.move? c p with
  | none =>
    simp only [hto, hm, Option.toList_none, Batch.answersTo, List.filterMap_nil, List.append_nil]
    exact ha
  | some m =>
    have hs := Batch.step_perform b m
    constructor
    · intro k hk
      have hk' : b.entries[k]? = Option.none := by
        rw [List.getElem?_eq_none_iff] at hk ⊢
        refine Nat.le_trans ?_ hk
        have := Batch.length_perform b m
        simp only [Option.toList_some, Batch.run]
        omega
      simp only [ha.none hk', answersTo_eq_nil h hk' a, List.append_nil]
    · intro k e he
      cases hk : b.entries[k]? with
      | none =>
        obtain ⟨ordinal, x, rfl, rfl, hx, rfl⟩ := hs.entry_added hk he
        rw [h.valid.rest, List.head?_drop] at hx
        refine ⟨x, hx, ?_⟩
        simp only [ha.none hk, answersTo_eq_nil h hk a, List.append_nil]
        rfl
      | some e₀ =>
        obtain ⟨x, hx, hop⟩ := ha.some hk
        obtain ⟨e', he', hop'⟩ := hs.operation hk
        have he : (b.perform m).1.entries[k]? = Option.some e := he
        rw [he'] at he
        cases he
        refine ⟨x, hx, ?_⟩
        rw [hop', hop]
        simp only [hto, hm, Option.toList_some]
        cases x.operation with
        | error y => rfl
        | ok op => exact congrArg Except.ok (Operation.answerAll_append op.submit _ _).symm

theorem Answered.run {given : Nat → List Answer} (ha : Answered commands b given)
    (h : c.Has p commands b) (acts : List (Act kinds)) :
    Answered commands (b.run (c.moves p acts)).1 fun k => given k ++ c.answersTo p k acts := by
  induction acts generalizing c b given with
  | nil => simpa [answersTo, moves, Batch.run] using ha
  | cons a acts ih =>
    have := ih (ha.perform h a) (h.perform a)
    rw [moves, Batch.run_append]
    simpa [answersTo, List.append_assoc] using this

/-- The operations of a batch that was just given will be those of its commands after the answers to
their requests. -/
theorem IsGiven.answered {d : Coordinator kinds} {limit : Nat}
    (hg : c.IsGiven commands limit b) (h : d.Has p commands b) (acts : List (Act kinds)) :
    Answered commands (b.run (d.moves p acts)).1 fun k => d.answersTo p k acts := by
  have hstart : Answered commands b fun _ => [] :=
    ⟨fun _ => rfl, fun he => by simp [hg.entries] at he⟩
  exact hstart.run h acts

/-! ## Batches that cannot start -/

theorem halted_perform_of_halted (hh : c.halted = true) (a : Act kinds) :
    (c.perform a).1.halted = true := by
  by_cases ha : a = .halt
  · rw [ha]
    rfl
  · rw [halted_perform c ha, hh]

/-- The coordinator was halted, or the limit of the batch is more than permits can keep. -/
def Refuses (c : Coordinator kinds) (b : Batch (kinds i)) : Prop :=
  c.halted = true ∨ Batch.maxPermits < b.limit

theorem Refuses.perform (hr : c.Refuses b) (a : Act kinds) :
    (c.perform a).1.Refuses (b.run (a.move? c p).toList).1 := by
  rcases hr with hh | hl
  · exact .inl (halted_perform_of_halted hh a)
  · exact .inr (by rwa [Batch.limit_run])

theorem Refuses.run (hr : c.Refuses b) (acts : List (Act kinds)) :
    (c.run acts).1.Refuses (b.run (c.moves p acts)).1 := by
  induction acts generalizing c b with
  | nil => exact hr
  | cons a acts ih =>
    rw [moves, Batch.run_append]
    exact ih (hr.perform a)

/-- Dispatching that is to go on with the next command stops. -/
theorem Refuses.stops (hr : c.Refuses b) (hc : b.control = .ready) (ordinal : Nat) :
    b.stops (.advance c.halted ordinal) = true := by
  rcases hr with hh | hl
  · simp [Batch.stops, hc, hh]
  · simp [Batch.stops, hc, hl]

/-- While nothing was handled, dispatching has the first command before it, or was interrupted. -/
def IsUnstarted (b : Batch (kinds i)) : Prop :=
  b.entries = [] ∧ (b.interrupted = true ∨ b.control = .ready)

theorem isUnstarted_of_entries (h : Batch.Valid commands b) (hne : commands ≠ [])
    (he : b.entries = []) : IsUnstarted b := by
  refine ⟨he, ?_⟩
  cases hi : b.interrupted with
  | true => exact .inl rfl
  | false =>
    right
    cases hc : b.control with
    | ready => rfl
    | submitting k =>
      have := h.busy (i := k) (by rw [hc]; rfl)
      simp [he] at this
    | noting k =>
      have := h.busy (i := k) (by rw [hc]; rfl)
      simp [he] at this
    | ended =>
      have := h.ended hc hi
      rw [he] at this
      exact absurd (List.length_eq_zero_iff.1 this.symm) hne

/-- A batch that is refused does not start, and is interrupted when its dispatching goes on. -/
theorem IsUnstarted.perform (hb : IsUnstarted b) (h : c.Has p commands b) (hr : c.Refuses b)
    (a : Act kinds) : IsUnstarted (b.run (a.move? c p).toList).1 ∧
      (a = .advance p → (b.run (a.move? c p).toList).1.interrupted = true) := by
  obtain ⟨he, hb⟩ := hb
  cases hm : a.move? c p with
  | none =>
    refine ⟨⟨he, hb⟩, ?_⟩
    rintro rfl
    simp [Act.move?] at hm
  | some m =>
    show IsUnstarted (b.perform m).1 ∧ (a = .advance p → (b.perform m).1.interrupted = true)
    by_cases hi : b.interrupted = true
    · obtain ⟨hi', hl, -⟩ := h.valid.perform_of_interrupted hi m
      rw [he] at hl
      exact ⟨⟨List.length_eq_zero_iff.1 hl, .inl hi'⟩, fun _ => hi'⟩
    · have hc := hb.resolve_left hi
      by_cases hs : b.stops m = true
      · have hi' : (b.perform m).1.interrupted = true := by
          rw [h.valid.interrupted_step (Batch.step_perform b m), hs, Bool.or_true]
        have hl := Batch.length_perform b m
        rw [Batch.handles_of_stops hs, he] at hl
        exact ⟨⟨List.length_eq_zero_iff.1 hl, .inl hi'⟩, fun _ => hi'⟩
      · rcases move?_cases hm with ⟨rfl, rfl⟩ | ⟨ordinal, x, k, rfl, -, rfl⟩ | ⟨k, rfl, rfl⟩ |
          ⟨rfl, rfl⟩ | ⟨l, rfl, rfl⟩
        · exact absurd (hr.stops hc _) hs
        · simpa [Batch.perform, Batch.answer, he] using ⟨he, .inr hc⟩
        · simpa [Batch.perform, Batch.proceed, he] using ⟨he, .inr hc⟩
        · simp [Batch.stops, hc] at hs
        · simpa using ⟨he, .inr hc⟩

theorem IsUnstarted.run (hb : IsUnstarted b) (h : c.Has p commands b) (hr : c.Refuses b)
    (acts : List (Act kinds)) : IsUnstarted (b.run (c.moves p acts)).1 ∧
      (.advance p ∈ acts → (b.run (c.moves p acts)).1.interrupted = true) := by
  induction acts generalizing c b with
  | nil => exact ⟨hb, by simp⟩
  | cons a acts ih =>
    obtain ⟨hb', ha⟩ := hb.perform h hr a
    have hnext := h.perform a
    obtain ⟨hb'', hacts⟩ := ih hb' hnext (hr.perform a)
    rw [moves, Batch.run_append]
    refine ⟨hb'', fun hmem => ?_⟩
    rcases List.mem_cons.1 hmem with heq | hmem
    · exact (hnext.valid.run_of_interrupted (ha heq.symm) _).1
    · exact hacts hmem

/-! ## Accounting -/

/-- **Interruption of batches.** -/
theorem batch_interruption (hc : Reachable c) (i : Index) {commands : List (Command (kinds i))}
    (hne : commands ≠ []) {limit : Nat} (hmax : limit ≤ Batch.maxPermits)
    (acts : List (Act kinds)) :
    let given := (c.dispatch i commands limit).1
    let p := c.batches.length
    let d := (given.run acts).1
    ∃ b, d.batches[p]? = some ⟨i, b⟩ ∧
      -- when the batch has failed
      ((∃ x, b.aggregate.outcome = some (.error x)) ↔ c.runtime ≠ .live ∨
        ∃ before a after, acts = before ++ a :: after ∧
          (given.run before).1.Interrupts p commands.length a) ∧
      -- what the failure tells
      (∀ x, b.aggregate.outcome = some (.error x) →
        x = .dispatchInterrupted b.entries.length commands.length ∧
        b.entries.length < commands.length) ∧
      d.submitted p = buildable commands b.entries.length ∧
      -- what became of the operations
      (∀ (k : Nat) (e : Batch.Entry (kinds i)), b.entries[k]? = some e →
        ∃ x, commands[k]? = some x ∧
          e.operation = x.operation.map fun op => (op.execute (given.answersTo p k acts)).1) ∧
      -- what comes later of a batch that has failed, and of one whose commands were all handled
      (∀ later : Nat → Act kinds,
        (∀ t, ∃ b', (d.after later t).batches[p]? = some ⟨i, b'⟩ ∧
          (∀ x, b.aggregate.outcome = some (.error x) →
            b'.aggregate.outcome = some (.error x) ∧ b'.entries.length = b.entries.length ∧
            (d.after later t).submitted p = d.submitted p) ∧
          (b.entries.length = commands.length → ∀ x, b'.aggregate.outcome ≠ some (.error x))) ∧
        (b.entries.length = commands.length → 0 < limit → d.IsFair p later →
          ∃ t b' items, (d.after later t).batches[p]? = some ⟨i, b'⟩ ∧
            b'.aggregate.outcome = some (.ok items) ∧
            (items.map (·.index)).Perm (List.range commands.length))) ∧
      -- a batch that is given after the coordinator was halted
      (c.halted = true → b.entries = [] ∧ (.advance p ∈ acts →
        b.aggregate.outcome = some (.error (.dispatchInterrupted 0 commands.length)))) := by
  intro given p d
  obtain ⟨b₀, hg, hhas₀⟩ := hc.exists_has i commands limit
  have hhas := hhas₀.run acts
  have hmax₀ : b₀.limit ≤ Batch.maxPermits := by rwa [hg.limit]
  have hint := interrupted_run_iff hhas₀ hmax₀ acts
  have hanswered := hg.answered hhas₀ acts
  have hunstarted := (isUnstarted_of_entries hg.valid hne hg.entries).run hhas₀
  generalize hb : (b₀.run (given.moves p acts)).1 = b at hhas hint hanswered
  have hnot : b.entries.length = commands.length → b.interrupted = false := fun hlen =>
    Bool.eq_false_iff.2 fun hi => Nat.ne_of_lt (hhas.valid.interrupted hi).2.1 hlen
  refine ⟨b, hhas.batch, ?_, ?_, hhas.submitted, fun k e he => hanswered.some he,
    fun later => ⟨fun t => ?_, ?_⟩, ?_⟩
  · rw [hhas.valid.failed_iff, hint, hg.interrupted]
    exact or_congr (and_iff_right hne) Iff.rfl
  · intro x hx
    have hi := hhas.valid.failed_iff.1 ⟨x, hx⟩
    obtain ⟨-, hlt, ho⟩ := hhas.valid.interrupted hi
    rw [ho] at hx
    cases hx
    exact ⟨rfl, hlt⟩
  · have hlater := hhas.run (firsts later t)
    refine ⟨_, hlater.batch, fun x hx => ?_, fun hlen x hx => ?_⟩
    · obtain ⟨-, hl, -⟩ := hhas.valid.run_of_interrupted (hhas.valid.failed_iff.1 ⟨x, hx⟩)
        (d.moves p (firsts later t))
      have hsub := hlater.submitted
      rw [hl] at hsub
      exact ⟨Batch.outcome_run_of_some hx _, hl, hsub.trans hhas.submitted.symm⟩
    · have hi := (hhas.valid.run_of_length_eq (hnot hlen) hlen (d.moves p (firsts later t))).1
      have := hlater.valid.failed_iff.1 ⟨x, hx⟩
      rw [hi] at this
      cases this
  · intro hlen hpos hfair
    have hlimit : b.limit = limit := by rw [← hb, Batch.limit_run, hg.limit]
    obtain ⟨t, ht⟩ := hhas.exists_remaining_eq_zero (hlimit ▸ hpos) (hlimit ▸ hmax) hfair
      fun t => (hhas.valid.run_of_length_eq (hnot hlen) hlen _).1
    have hlater := hhas.run (firsts later t)
    exact ⟨t, _, _, hlater.batch, hlater.valid.completed
      (hlater.valid.interrupted_eq_false_of_remaining ht) ht, hlater.valid.perm_range ht⟩
  · intro hh
    obtain ⟨⟨he, -⟩, hadvance⟩ :=
      hunstarted (.inl ((halted_dispatch c i commands limit).trans hh)) acts
    rw [hb] at he hadvance
    refine ⟨he, fun hmem => ?_⟩
    have := (hhas.valid.interrupted (hadvance hmem)).2.2
    rwa [he] at this

/-- The batch of echoes is interrupted while its first operation is out. -/
theorem batch_interruption_echoes : ∃ b,
    ((idle.dispatch () echoes 1).1.run [.advance 0, .advance 0, .halt, .advance 0]).1.batches[0]? =
      some ⟨(), b⟩ ∧ (∃ x, b.aggregate.outcome = some (.error x)) := by
  obtain ⟨b, hb, hfailed, -⟩ := batch_interruption reachable_idle ()
    (show echoes ≠ [] from List.cons_ne_nil _ _) (by decide : 1 ≤ Batch.maxPermits)
    [.advance 0, .advance 0, .halt, .advance 0]
  refine ⟨b, hb, hfailed.2 (.inr ⟨[.advance 0, .advance 0, .halt], .advance 0, [], rfl, ?_⟩)⟩
  exact ⟨(), _, rfl, rfl, by decide, .inl ⟨rfl, rfl⟩⟩

end StoreClient.Coordinator
