import StoreClient.Proofs.Batch.Completion
import StoreClient.Proofs.Batch.Limit
import StoreClient.Sums

/-!
# Progress of a batch

The `rank` of a batch counts the steps that are left until all items are counted. A move lowers it,
or leaves where dispatching and the listeners are (`Valid.rank_step`), unless dispatching stops. The
moves that matter lower it: the next step of a listener that runs, of dispatching that submits, and
of dispatching that can handle a command.

So dispatching that can make no step has no permit (`Valid.holders_eq_limit`).
-/

namespace StoreClient.Batch

variable {σ : Signature} {commands : List (Command σ)} {b : Batch σ}

/-- How many steps of dispatching, the transport and the listener an entry has before it. -/
def Stage.rank : Stage → Nat
  | unwatched => 6
  | awaited => 5
  | due => 4
  | reported => 3
  | collected => 2
  | released => 1
  | counted => 0

/-- How many such steps a batch has before it. -/
def rank (b : Batch σ) : Nat := sumOf (·.stage.rank) b.entries + 7 * b.rest.length

/-- Dispatching and the listeners are where they were. -/
structure SamePlace (b b' : Batch σ) : Prop where
  control : b'.control = b.control
  rest : b'.rest = b.rest
  stages : b'.entries.map (·.stage) = b.entries.map (·.stage)

theorem SamePlace.refl (b : Batch σ) : b.SamePlace b := ⟨rfl, rfl, rfl⟩

theorem SamePlace.trans {b b' b'' : Batch σ} (h : b.SamePlace b') (h' : b'.SamePlace b'') :
    b.SamePlace b'' :=
  ⟨h'.control.trans h.control, h'.rest.trans h.rest, h'.stages.trans h.stages⟩

theorem SamePlace.rank_eq {b b' : Batch σ} (h : b.SamePlace b') : b'.rank = b.rank := by
  have hsum (x : Batch σ) :
      sumOf (·.stage.rank) x.entries = sumOf Stage.rank (x.entries.map (·.stage)) :=
    (sumOf_map _ _).symm
  unfold rank
  rw [hsum, hsum, h.stages, h.rest]

theorem SamePlace.stage {b b' : Batch σ} (h : b.SamePlace b') {k : Nat} {e : Entry σ}
    (he : b.entries[k]? = some e) : ∃ e', b'.entries[k]? = some e' ∧ e'.stage = e.stage := by
  have hk := congrArg (·[k]?) h.stages
  simp only [List.getElem?_map, he, Option.map_some] at hk
  obtain ⟨e', he', hs⟩ := Option.map_eq_some_iff.1 hk
  exact ⟨e', he', hs⟩

theorem SamePlace.holders_eq {b b' : Batch σ} (h : b.SamePlace b') : b'.holders = b.holders := by
  have hmap : ∀ x : Batch σ, x.holders = (x.entries.map (·.stage)).countP Stage.holdsPermit := by
    intro x
    rw [List.countP_map]
    rfl
  rw [hmap, hmap, h.stages]

/-- In a sequence of batches in which each step lowers the rank or stays in place, from any time on
the rank comes to be lower or all stay in place. -/
theorem rank_lt_or_samePlace {bs : Nat → Batch σ}
    (hstep : ∀ t, (bs (t + 1)).rank < (bs t).rank ∨ (bs t).SamePlace (bs (t + 1))) (t : Nat) :
    (∃ u, (bs u).rank < (bs t).rank) ∨ ∀ u, t ≤ u → (bs t).SamePlace (bs u) := by
  by_cases hlt : ∃ u, (bs u).rank < (bs t).rank
  · exact .inl hlt
  · refine .inr fun u hu => ?_
    obtain ⟨n, rfl⟩ := Nat.exists_eq_add_of_le hu
    induction n with
    | zero => exact .refl _
    | succ n ih =>
      have hn := ih (Nat.le_add_right t n)
      rcases hstep (t + n) with hr | hs
      · exact absurd ⟨t + n + 1, hn.rank_eq ▸ hr⟩ hlt
      · exact hn.trans hs

/-- So there is a time from which on all stay in place. -/
theorem exists_samePlace {bs : Nat → Batch σ}
    (hstep : ∀ t, (bs (t + 1)).rank < (bs t).rank ∨ (bs t).SamePlace (bs (t + 1))) :
    ∃ t, ∀ u, t ≤ u → (bs t).SamePlace (bs u) := by
  suffices hmain : ∀ n t, (bs t).rank = n → ∃ t, ∀ u, t ≤ u → (bs t).SamePlace (bs u) from
    hmain _ 0 rfl
  intro n
  induction n using Nat.strongRecOn with
  | ind n ih =>
    rintro t rfl
    rcases rank_lt_or_samePlace hstep t with ⟨u, hu⟩ | hsame
    · exact ih _ hu u rfl
    · exact ⟨t, hsame⟩

/-! ## Exchanging an entry -/

/-- To lower the rank of an entry lowers that of the batch. -/
theorem rank_setEntry_lt {index : Nat} {e f : Entry σ} (he : b.entries[index]? = some e)
    (hs : f.stage.rank < e.stage.rank) : (b.setEntry index f).rank < b.rank := by
  have := sumOf_set (f := fun x : Entry σ => x.stage.rank) f he
  simp only [rank, setEntry]
  omega

theorem stages_setEntry {index : Nat} {e e' : Entry σ} (he : b.entries[index]? = some e)
    (hs : e'.stage = e.stage) :
    (b.setEntry index e').entries.map (·.stage) = b.entries.map (·.stage) := by
  obtain ⟨hlt, rfl⟩ := List.getElem?_eq_some_iff.1 he
  have hself := @List.set_getElem_self _ (b.entries.map (·.stage)) index (by simpa using hlt)
  simp only [setEntry, List.map_set, hs]
  simpa using hself

/-! ## Steps -/

theorem rank_count (b : Batch σ) (index : Nat) : (b.count index).1.rank = b.rank := by
  unfold count complete rank
  dsimp only
  split
  · split <;> rfl
  · rfl

/-- To handle a command lowers the rank: it has more steps before it as long as it is not handled.
-/
theorem rank_handle_lt {permits : Permits} {c : Command σ} {rest : List (Command σ)}
    (hr : b.rest = c :: rest) (ordinal : Nat) :
    ({ b with permits := permits, rest := rest }.handle ordinal c).1.rank < b.rank := by
  have hnew : (Entry.ofCommand c).stage.rank = 6 := rfl
  rw [handle_fields]
  simp only [rank, hr, sumOf_append, sumOf_cons, sumOf_nil, hnew, List.length_cons]
  omega

/-- So does the registration of a listener. -/
theorem rank_watch_lt {index : Nat} {e : Entry σ} (he : b.entries[index]? = some e)
    (hs : e.stage = .unwatched) : (b.watch index).rank < b.rank := by
  unfold watch
  simp only [he]
  split
  · exact rank_setEntry_lt (f := { e with stage := .due }) he (by simp [hs, Stage.rank])
  · exact rank_setEntry_lt (f := { e with stage := .awaited }) he (by simp [hs, Stage.rank])

/-- The next step of a listener that runs lowers the rank. -/
theorem rank_proceed_lt {index : Nat} {e : Entry σ} (he : b.entries[index]? = some e)
    (hrun : e.stage.isRunning = true) : (b.perform (.proceed index)).1.rank < b.rank := by
  have hs := step_perform b (.proceed index)
  generalize b.perform (.proceed index) = r at hs
  cases hs with
  | stop hc hs => simp [stops] at hs
  | report hx hs => exact rank_setEntry_lt hx (by simp [hs, Stage.rank])
  | collect hx hs => exact rank_setEntry_lt hx (by simp [hs, Stage.rank])
  | release hx hs => exact rank_setEntry_lt hx (by simp [hs, Stage.rank])
  | count hx hs =>
    rw [rank_count]
    exact rank_setEntry_lt hx (by simp [hs, Stage.rank])
  | still hs => exact absurd (hs e he) (by simp [hrun])

namespace Valid

/-- Unless dispatching stops, a move lowers the rank, or leaves where dispatching and the listeners
are. -/
theorem rank_step (h : Valid commands b) {m : Move} {r : Batch σ × List Notice} (hs : Step b m r)
    (hm : b.stops m = false) : r.1.rank < b.rank ∨ b.SamePlace r.1 := by
  cases hs with
  | stop hc hs => exact absurd (hs.symm.trans hm) (by simp)
  | finish hc hl hr => exact absurd hr (h.rest_ne_nil hc)
  | handle hc hl hr ht => exact .inl (rank_handle_lt hr _)
  | @watch halted ordinal index hc =>
    obtain ⟨e, he⟩ := h.exists_entry (by rw [hc]; rfl)
    exact .inl (rank_watch_lt he (h.submitting hc he))
  | @answer index a e he =>
    rcases e.stage_answer a with hs | ⟨hs, hs'⟩
    · exact .inr ⟨rfl, rfl, stages_setEntry he hs⟩
    · exact .inl (rank_setEntry_lt he (by simp [hs, hs', Stage.rank]))
  | report he hs => exact .inl (rank_setEntry_lt he (by simp [hs, Stage.rank]))
  | collect he hs => exact .inl (rank_setEntry_lt he (by simp [hs, Stage.rank]))
  | release he hs => exact .inl (rank_setEntry_lt he (by simp [hs, Stage.rank]))
  | count he hs =>
    rw [rank_count]
    exact .inl (rank_setEntry_lt he (by simp [hs, Stage.rank]))
  | _ => exact .inr ⟨rfl, rfl, rfl⟩

/-- Dispatching that registers a listener lowers the rank. -/
theorem rank_advance_lt_of_submitting (h : Valid commands b) {index : Nat}
    (hc : b.control = .submitting index) (halted : Bool) (ordinal : Nat) :
    (b.perform (.advance halted ordinal)).1.rank < b.rank := by
  obtain ⟨e, he⟩ := h.exists_entry (by rw [hc]; rfl)
  have hperform : b.perform (.advance halted ordinal) = (b.watch index, []) := by
    simp [Batch.perform, Batch.advance, hc]
  rw [hperform]
  exact rank_watch_lt he (h.submitting hc he)

/-- So does dispatching that has the next command before it and finds a permit. -/
theorem rank_advance_lt_of_ready (h : Valid commands b) (hc : b.control = .ready)
    (hl : b.limit ≤ maxPermits) (hp : b.holders < b.limit) (ordinal : Nat) :
    (b.perform (.advance false ordinal)).1.rank < b.rank := by
  have hheld := h.held
  have hs := step_perform b (.advance false ordinal)
  generalize b.perform (.advance false ordinal) = r at hs
  cases hs with
  | stop _ hs =>
    have : ¬ maxPermits < b.limit := Nat.not_lt.2 hl
    simp [stops, this] at hs
  | handle _ _ hr ht => exact rank_handle_lt hr _
  | finish _ _ hr => exact absurd hr (h.rest_ne_nil hc)
  | wait _ _ hr ht =>
    have hu := (Permits.unheld_of_not_take ht).2
    unfold holders at hp
    omega
  | watch hs => simp [hc] at hs
  | rest hr hs => exact absurd hc hr

end Valid

/-! ## What is left to do -/

/-- What a batch can be waiting for while items remain. -/
inductive Unfinished (b : Batch σ) : Prop where
  /-- Dispatching has a listener to register. -/
  | submitting {index : Nat} (hc : b.control = .submitting index)
  /-- Dispatching has a command before it and a permit for it. -/
  | ready (hc : b.control = .ready) (hp : b.holders < b.limit)
  /-- The listener of an item runs. -/
  | running {k : Nat} {e : Entry σ} (he : b.entries[k]? = some e) (hs : e.stage.isRunning = true)
  /-- An item that was submitted is not done. -/
  | awaited {k : Nat} {e : Entry σ} (he : b.entries[k]? = some e) (hsub : e.isSubmitted = true)
      (hs : e.stage = .awaited)

/-- There is nothing else to wait for. -/
theorem Valid.unfinished (h : Valid commands b) (hi : b.interrupted = false) (hl : 0 < b.limit)
    (hr : b.remaining ≠ 0) : b.Unfinished := by
  by_cases hrun : ∃ (k : Nat) (e : Entry σ), b.entries[k]? = some e ∧ e.stage.isRunning = true
  · obtain ⟨k, e, he, hs⟩ := hrun
    exact .running he hs
  by_cases hsub : ∃ index, b.control = .submitting index
  · obtain ⟨index, hc⟩ := hsub
    exact .submitting hc
  -- nothing is being submitted and no listener runs, so every entry waits or is counted
  have hbusy : b.control.busy? = none := by
    cases hc : b.control with
    | submitting index => exact absurd ⟨index, hc⟩ hsub
    | noting index =>
      obtain ⟨e, he⟩ := h.exists_entry (i := index) (by rw [hc]; rfl)
      exact absurd ⟨index, e, he, h.noting hc he⟩ hrun
    | ready | ended => rfl
  have hstage : ∀ {k : Nat} {e : Entry σ}, b.entries[k]? = some e →
      e.stage = .awaited ∨ e.stage = .counted := by
    intro k e he
    have hun := (h.settled he (by simp [hbusy])).1
    have hnot : e.stage.isRunning ≠ true := fun hs => hrun ⟨k, e, he, hs⟩
    cases hs : e.stage <;> simp_all [Stage.isRunning]
  by_cases hwait : ∃ (k : Nat) (e : Entry σ), b.entries[k]? = some e ∧ e.stage = .awaited
  · obtain ⟨k, e, he, hs⟩ := hwait
    refine .awaited he ?_ hs
    cases hsub : e.isSubmitted with
    | true => rfl
    | false => simp [(h.settled he (by simp [hbusy])).2 hsub] at hs
  -- every item that was handled is counted, so commands are left and every permit is free
  have hall : ∀ {k : Nat} {e : Entry σ}, b.entries[k]? = some e → e.stage = .counted := by
    intro k e he
    exact (hstage he).resolve_left fun hs => hwait ⟨k, e, he, hs⟩
  refine .ready ?_ ?_
  · cases hc : b.control with
    | ready => rfl
    | submitting index => simp [hc, Control.busy?] at hbusy
    | noting index => simp [hc, Control.busy?] at hbusy
    | ended =>
      refine absurd (h.remaining_eq_zero_iff.2 fun k hk => ?_) hr
      have hlt : k < b.entries.length := by rwa [h.ended hc hi]
      exact ⟨b.entries[k], List.getElem?_eq_getElem hlt, hall (List.getElem?_eq_getElem hlt)⟩
  · have hzero : b.holders = 0 := by
      refine List.countP_eq_zero.2 fun e he => ?_
      obtain ⟨k, hk, rfl⟩ := List.getElem_of_mem he
      rw [hall (List.getElem?_eq_getElem hk)]
      simp [Stage.holdsPermit]
    omega

/-! ## Where dispatching cannot go on -/

/-- The next step of dispatching: that of the listener that it runs, if it runs one. -/
def dispatchingMove (b : Batch σ) (halted : Bool) (ordinal : Nat) : Move :=
  match b.control with
  | .noting index => .proceed index
  | _ => .advance halted ordinal

/-- Dispatching that is not halted, has commands left and cannot go on has the next of them before
it, and every permit is held by an item that was submitted. -/
theorem Valid.holders_eq_limit (h : Valid commands b) (hl : b.limit ≤ maxPermits)
    (hi : b.interrupted = false) (hr : b.rest ≠ []) {ordinal : Nat}
    (hstuck : (b.perform (b.dispatchingMove false ordinal)).1 = b) :
    b.control = .ready ∧ b.holders = b.limit := by
  have hrank : ¬ (b.perform (b.dispatchingMove false ordinal)).1.rank < b.rank := by
    rw [hstuck]
    exact Nat.lt_irrefl _
  cases hc : b.control with
  | submitting index =>
    refine absurd (h.rank_advance_lt_of_submitting hc false ordinal) ?_
    simpa [dispatchingMove, hc] using hrank
  | noting index =>
    obtain ⟨e, he⟩ := h.exists_entry (i := index) (by rw [hc]; rfl)
    refine absurd (rank_proceed_lt he (h.noting hc he)) ?_
    simpa [dispatchingMove, hc] using hrank
  | ended =>
    refine absurd ?_ hr
    rw [h.rest, h.ended hc hi, List.drop_length]
  | ready =>
    refine ⟨rfl, Nat.le_antisymm h.held_le (Nat.not_lt.1 fun hp => ?_)⟩
    refine absurd (h.rank_advance_lt_of_ready hc hl hp ordinal) ?_
    simpa [dispatchingMove, hc] using hrank

end StoreClient.Batch
