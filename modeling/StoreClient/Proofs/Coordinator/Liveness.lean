import StoreClient.Proofs.Coordinator.Runs
import StoreClient.Proofs.Sequences

/-!
# Batches come to an end

A run is *fair* to a batch if dispatching and the listeners of the batch go on when they can, and
the transport resolves every operation of the batch that it took (`IsFair`). In a fair run that does
not interrupt a batch, all its items come to be counted (`Has.exists_remaining_eq_zero`): as long as
they are not, there is an act that is made some time and lowers the rank, by
`Batch.Valid.unfinished`.
-/

namespace StoreClient.Coordinator

variable {Index : Type} {kinds : Index → Signature}

/-! ## Uninterrupted runs -/

/-- The act leaves the dispatching of the batch at a position alone. -/
def Act.Lets (position : Nat) : Act kinds → Prop
  | .halt => False
  | .abandon p => p ≠ position
  | _ => True

theorem Act.Lets.ne_halt {p : Nat} {a : Act kinds} (ha : a.Lets p) : a ≠ .halt := by
  rintro rfl
  exact ha

theorem halted_dispatch (c : Coordinator kinds) (i : Index) (commands : List (Command (kinds i)))
    (limit : Nat) : (c.dispatch i commands limit).1.halted = c.halted := by
  unfold dispatch
  dsimp only
  split
  · rfl
  · split <;> rfl

theorem halted_move (c : Coordinator kinds) (p : Nat) (m : Batch.Move) :
    (c.move p m).1.halted = c.halted := by
  unfold move
  split <;> rfl

theorem halted_perform (c : Coordinator kinds) {a : Act kinds} (ha : a ≠ .halt) :
    (c.perform a).1.halted = c.halted := by
  cases a with
  | execute i commands => exact halted_dispatch c i commands c.limit
  | executeWithLimit i commands limit =>
    simp only [perform, executeWithLimit]
    cases FanOutConfig.validate ⟨limit⟩ with
    | error e => rfl
    | ok _ => exact halted_dispatch c i commands limit.toNat
  | advance q => exact halted_move c q _
  | answer ordinal a =>
    simp only [perform]
    split
    · rfl
    · exact halted_move c _ _
  | proceed q index => exact halted_move c q _
  | abandon q => exact halted_move c q _
  | listen q l => exact halted_move c q _
  | halt => exact absurd rfl ha
  | close =>
    simp only [perform]
    split <;> rfl

/-- Dispatching that is not halted does not stop at an act that lets it go on. -/
theorem stops_eq_false {c : Coordinator kinds} {p : Nat} {i : Index} {b : Batch (kinds i)}
    (hh : c.halted = false) (hl : b.limit ≤ Batch.maxPermits) {a : Act kinds} (ha : a.Lets p)
    {m : Batch.Move} (hm : a.move? c p = some m) : b.stops m = false := by
  refine Bool.eq_false_iff.2 fun hs => ?_
  rcases ((stops_iff hl hm).1 hs).2 with ⟨-, hh'⟩ | rfl
  · exact Bool.false_ne_true (hh.symm.trans hh')
  · exact ha rfl

/-- A batch whose dispatching goes on, of a coordinator that was not halted. -/
structure Undisturbed (c : Coordinator kinds) {i : Index} (b : Batch (kinds i)) : Prop where
  halted : c.halted = false
  interrupted : b.interrupted = false
  limit_le : b.limit ≤ Batch.maxPermits

variable {c : Coordinator kinds} {p : Nat} {i : Index} {commands : List (Command (kinds i))}
  {b : Batch (kinds i)}

theorem Undisturbed.perform (hu : c.Undisturbed b) (h : Batch.Valid commands b) {a : Act kinds}
    (ha : a.Lets p) : (c.perform a).1.Undisturbed (b.run (a.move? c p).toList).1 := by
  refine ⟨(halted_perform c ha.ne_halt).trans hu.halted, ?_, ?_⟩
  · cases hm : a.move? c p with
    | none => exact hu.interrupted
    | some m =>
      have hs := h.interrupted_step (Batch.step_perform b m)
      rw [hu.interrupted, stops_eq_false hu.halted hu.limit_le ha hm] at hs
      exact hs
  · cases hm : a.move? c p with
    | none => exact hu.limit_le
    | some m => exact Nat.le_trans (Nat.le_of_eq (Batch.limit_perform b m)) hu.limit_le

theorem Undisturbed.run (hu : c.Undisturbed b) (h : c.Has p commands b) {acts : List (Act kinds)}
    (ha : ∀ a ∈ acts, a.Lets p) : (c.run acts).1.Undisturbed (b.run (c.moves p acts)).1 := by
  induction acts generalizing c b with
  | nil => exact hu
  | cons a acts ih =>
    rw [moves, Batch.run_append]
    exact ih (hu.perform h.valid (ha a List.mem_cons_self)) (h.perform a)
      fun a' ha' => ha a' (List.mem_cons_of_mem a ha')

/-! ## Infinite runs -/

/-- The coordinator after the first `t` of the acts. -/
def after (c : Coordinator kinds) (acts : Nat → Act kinds) (t : Nat) : Coordinator kinds :=
  (c.run (firsts acts t)).1

/-- The item was submitted and is done. -/
def IsResolved (c : Coordinator kinds) (p k : Nat) : Prop :=
  ∃ (i : Index) (b : Batch (kinds i)) (e : Batch.Entry (kinds i)),
    c.batches[p]? = some ⟨i, b⟩ ∧ b.entries[k]? = some e ∧ e.outcome?.isSome = true

/-- The acts by which the dispatching of a batch and the listeners of its items go on. -/
def Act.IsStepOf (p : Nat) : Act kinds → Prop
  | .advance q => q = p
  | .proceed q _ => q = p
  | _ => False

/-- Dispatching and listeners go on if they can, and the transport resolves what it took. -/
structure IsFair (c : Coordinator kinds) (p : Nat) (acts : Nat → Act kinds) : Prop where
  /-- An act that could be made from some time on, and would change something, is made. -/
  goesOn : ∀ (a : Act kinds) (t : Nat), a.IsStepOf p →
    (∀ u, t ≤ u → ((c.after acts u).perform a).1 ≠ c.after acts u) → ∃ u, t ≤ u ∧ acts u = a
  /-- An item that was submitted is done some time. -/
  resolves : ∀ t k, k ∈ (c.after acts t).submitted p → ∃ u, t ≤ u ∧ (c.after acts u).IsResolved p k

/-- The batch at a position after the first `t` of the acts. -/
def batchAfter (c : Coordinator kinds) (p : Nat) (b : Batch (kinds i)) (acts : Nat → Act kinds)
    (t : Nat) : Batch (kinds i) :=
  (b.run (c.moves p (firsts acts t))).1

variable {acts : Nat → Act kinds}

theorem batchAfter_succ (c : Coordinator kinds) (p : Nat) (b : Batch (kinds i))
    (acts : Nat → Act kinds) (t : Nat) : c.batchAfter p b acts (t + 1) =
      ((c.batchAfter p b acts t).run ((acts t).move? (c.after acts t) p).toList).1 := by
  unfold batchAfter after
  rw [firsts_succ, moves_append, Batch.run_append]
  simp [moves]

@[simp] theorem limit_batchAfter (c : Coordinator kinds) (p : Nat) (b : Batch (kinds i))
    (acts : Nat → Act kinds) (t : Nat) : (c.batchAfter p b acts t).limit = b.limit :=
  Batch.limit_run b _

/-- An outcome of a batch stays. -/
theorem outcome_batchAfter_of_some {x : Outcome (List (Batch.Item (kinds i)))} {t u : Nat}
    (h : (c.batchAfter p b acts t).aggregate.outcome = some x) (htu : t ≤ u) :
    (c.batchAfter p b acts u).aggregate.outcome = some x := by
  obtain ⟨n, rfl⟩ := Nat.exists_eq_add_of_le htu
  unfold batchAfter at h ⊢
  rw [firsts_add, moves_append, Batch.run_append]
  exact Batch.outcome_run_of_some h _

namespace Has

theorem after (h : c.Has p commands b) (acts : Nat → Act kinds) (t : Nat) :
    (c.after acts t).Has p commands (c.batchAfter p b acts t) :=
  h.run _

/-- An act that does not interrupt a batch lowers its rank or leaves it in place. -/
theorem rank_batchAfter (h : c.Has p commands b) {t : Nat}
    (hint : (c.batchAfter p b acts (t + 1)).interrupted = false) :
    (c.batchAfter p b acts (t + 1)).rank < (c.batchAfter p b acts t).rank ∨
      (c.batchAfter p b acts t).SamePlace (c.batchAfter p b acts (t + 1)) := by
  have hvalid := (h.after acts t).valid
  rw [batchAfter_succ] at hint ⊢
  generalize c.batchAfter p b acts t = x at hvalid hint ⊢
  cases hm : (acts t).move? (c.after acts t) p with
  | none => exact .inr (.refl _)
  | some m =>
    rw [hm] at hint
    have hs := Batch.step_perform x m
    have hstop := hvalid.interrupted_step hs
    rw [show (x.perform m).1.interrupted = false from hint, eq_comm, Bool.or_eq_false_iff] at hstop
    show (x.perform m).1.rank < x.rank ∨ x.SamePlace (x.perform m).1
    exact hvalid.rank_step hs hstop.2

/-- If a fair run leaves a batch in place from some time on, a step of the batch that could be made
would not lower the rank at some time, or interrupt the batch: else it would be made some time. -/
theorem exists_not_lower (h : c.Has p commands b) (hfair : c.IsFair p acts)
    (hint : ∀ t, (c.batchAfter p b acts t).interrupted = false) {t : Nat}
    (hsame : ∀ u, t ≤ u → (c.batchAfter p b acts t).SamePlace (c.batchAfter p b acts u))
    {a : Act kinds} (ha : a.IsStepOf p) : ∃ u, t ≤ u ∧
      ¬ (((c.batchAfter p b acts u).run (a.move? (c.after acts u) p).toList).1.rank <
          (c.batchAfter p b acts u).rank ∨
        ((c.batchAfter p b acts u).run (a.move? (c.after acts u) p).toList).1.interrupted =
          true) := by
  by_cases henabled : ∀ u, t ≤ u → ((c.after acts u).perform a).1 ≠ c.after acts u
  · obtain ⟨u, hu, rfl⟩ := hfair.goesOn a t ha henabled
    refine ⟨u, hu, ?_⟩
    rw [← batchAfter_succ, hint, (hsame u hu).rank_eq,
      (hsame (u + 1) (Nat.le_succ_of_le hu)).rank_eq]
    rintro (hlt | hi)
    · exact Nat.lt_irrefl _ hlt
    · cases hi
  · obtain ⟨u, hu⟩ := Classical.not_forall.1 henabled
    obtain ⟨hu, heq⟩ := Classical.not_imp.1 hu
    have hb := batch_perform (h.after acts u).batch a
    rw [Classical.not_not.1 heq, (h.after acts u).batch] at hb
    have hself : ((c.batchAfter p b acts u).run (a.move? (c.after acts u) p).toList).1 =
        c.batchAfter p b acts u := by
      simpa using hb.symm
    refine ⟨u, hu, ?_⟩
    rw [hself, hint]
    rintro (hlt | hi)
    · exact Nat.lt_irrefl _ hlt
    · cases hi

/-- If a fair run leaves a batch in place from some time on, nothing remains. -/
theorem remaining_of_samePlace (h : c.Has p commands b) (hpos : 0 < b.limit)
    (hmax : b.limit ≤ Batch.maxPermits) (hfair : c.IsFair p acts)
    (hint : ∀ t, (c.batchAfter p b acts t).interrupted = false) {t : Nat}
    (hsame : ∀ u, t ≤ u → (c.batchAfter p b acts t).SamePlace (c.batchAfter p b acts u)) :
    (c.batchAfter p b acts t).remaining = 0 := by
  by_contra hr
  have hlower {a : Act kinds} (ha : a.IsStepOf p) := h.exists_not_lower hfair hint hsame ha
  cases (h.after acts t).valid.unfinished (hint t) (by rwa [limit_batchAfter]) hr with
  | submitting hc =>
    obtain ⟨u, hu, hnot⟩ := hlower (a := .advance p) rfl
    have hcu := (hsame u hu).control.trans hc
    refine hnot (.inl ?_)
    simpa [Act.move?, Batch.run] using
      (h.after acts u).valid.rank_advance_lt_of_submitting hcu (c.after acts u).halted _
  | ready hc hp =>
    obtain ⟨u, hu, hnot⟩ := hlower (a := .advance p) rfl
    have hcu := (hsame u hu).control.trans hc
    cases hh : (c.after acts u).halted with
    | true =>
      have hs := (h.after acts u).valid.interrupted_step (Batch.step_perform _
        (.advance true (c.after acts u).submissions.length))
      refine hnot (.inr ?_)
      simpa [Act.move?, Batch.run, hh, hcu, Batch.stops] using hs
    | false =>
      have hpu : (c.batchAfter p b acts u).holders < (c.batchAfter p b acts u).limit := by
        rw [(hsame u hu).holders_eq, limit_batchAfter, ← limit_batchAfter c p b acts t]
        exact hp
      refine hnot (.inl ?_)
      simpa [Act.move?, Batch.run, hh] using
        (h.after acts u).valid.rank_advance_lt_of_ready hcu (by rwa [limit_batchAfter]) hpu _
  | @running k e he hs =>
    obtain ⟨u, hu, hnot⟩ := hlower (a := .proceed p k) rfl
    obtain ⟨e', he', hs'⟩ := (hsame u hu).stage he
    refine hnot (.inl ?_)
    simpa [Act.move?, Batch.run] using Batch.rank_proceed_lt he' (by rw [hs']; exact hs)
  | @awaited k e he hsub hs =>
    -- the transport took the operation, and so resolves it; but then its listener would not wait
    have hmem : k ∈ (c.after acts t).submitted p := by
      rw [(h.after acts t).submitted]
      exact (h.after acts t).mem_buildable he hsub
    obtain ⟨u, hu, j, x, e', hx, he', hdone⟩ := hfair.resolves t k hmem
    rw [(h.after acts u).batch] at hx
    cases hx
    obtain ⟨e'', he'', hs''⟩ := (hsame u hu).stage he
    rw [he'] at he''
    cases he''
    have hnone := ((h.after acts u).valid.fits he').outcome?_eq_none (hs''.trans hs)
    simp [hnone] at hdone

/-- In a fair run, all the items of a batch come to be counted, unless it is interrupted. -/
theorem exists_remaining_eq_zero (h : c.Has p commands b) (hpos : 0 < b.limit)
    (hmax : b.limit ≤ Batch.maxPermits) (hfair : c.IsFair p acts)
    (hint : ∀ t, (c.batchAfter p b acts t).interrupted = false) :
    ∃ t, (c.batchAfter p b acts t).remaining = 0 := by
  obtain ⟨t, hsame⟩ := Batch.exists_samePlace fun t => h.rank_batchAfter (hint (t + 1))
  exact ⟨t, h.remaining_of_samePlace hpos hmax hfair hint hsame⟩

end Has

end StoreClient.Coordinator
