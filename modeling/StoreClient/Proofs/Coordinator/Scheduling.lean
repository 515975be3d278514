import StoreClient.Proofs.Coordinator.Runs

/-!
# Scheduling is made of acts

What a coordinator does by itself, and what is done to it from outside, is made of acts: `pump`,
`answer?`, `interrupt`, `shutDown` and `listen` lead to where some acts lead, and notice the same
(`IsRun`). Which batches get a turn next does not matter to that.
-/

namespace StoreClient.Coordinator

variable {Index : Type} {kinds : Index → Signature} {c c' c'' d : Coordinator kinds}
  {ns ns' : List Notice}

/-! ## Turns do not matter -/

/-- The coordinators differ at most in which batches get a turn. -/
def SameBatches (c d : Coordinator kinds) : Prop :=
  ∃ schedule waiting, d = { c with schedule := schedule, waiting := waiting }

theorem SameBatches.refl (c : Coordinator kinds) : c.SameBatches c := ⟨_, _, rfl⟩

theorem SameBatches.trans (h : c.SameBatches c') (h' : c'.SameBatches c'') :
    c.SameBatches c'' := by
  obtain ⟨s, w, rfl⟩ := h
  obtain ⟨s', w', rfl⟩ := h'
  exact ⟨s', w', rfl⟩

theorem dispatch_congr (h : c.SameBatches d) (i : Index) (commands : List (Command (kinds i)))
    (limit : Nat) : (c.dispatch i commands limit).1.SameBatches (d.dispatch i commands limit).1 ∧
      (c.dispatch i commands limit).2 = (d.dispatch i commands limit).2 := by
  obtain ⟨s, w, rfl⟩ := h
  unfold dispatch
  dsimp only
  split
  · exact ⟨⟨_, _, rfl⟩, rfl⟩
  · split <;> exact ⟨⟨_, _, rfl⟩, rfl⟩

theorem move_congr (h : c.SameBatches d) (p : Nat) (m : Batch.Move) :
    (c.move p m).1.SameBatches (d.move p m).1 ∧ (c.move p m).2 = (d.move p m).2 := by
  obtain ⟨s, w, rfl⟩ := h
  unfold move
  dsimp only
  split <;> exact ⟨⟨_, _, rfl⟩, rfl⟩

theorem perform_congr (h : c.SameBatches d) (a : Act kinds) :
    (c.perform a).1.SameBatches (d.perform a).1 ∧ (c.perform a).2 = (d.perform a).2 := by
  cases a with
  | execute i commands =>
    have hl : d.limit = c.limit := by
      obtain ⟨s, w, rfl⟩ := h
      rfl
    simp only [perform, execute, hl]
    exact dispatch_congr h i commands _
  | executeWithLimit i commands limit =>
    simp only [perform, executeWithLimit]
    cases FanOutConfig.validate ⟨limit⟩ with
    | error e => exact ⟨h, rfl⟩
    | ok _ => exact dispatch_congr h i commands _
  | answer ordinal a =>
    have hs : d.submissions = c.submissions := by
      obtain ⟨s, w, rfl⟩ := h
      rfl
    simp only [perform, hs]
    split
    · exact ⟨h, rfl⟩
    · exact move_congr h _ _
  | advance p =>
    have hs : d.submissions = c.submissions ∧ d.halted = c.halted := by
      obtain ⟨s, w, rfl⟩ := h
      exact ⟨rfl, rfl⟩
    simp only [perform, hs]
    exact move_congr h _ _
  | proceed p k => exact move_congr h _ _
  | abandon p => exact move_congr h _ _
  | listen p l => exact move_congr h _ _
  | halt =>
    obtain ⟨s, w, rfl⟩ := h
    exact ⟨⟨_, _, rfl⟩, rfl⟩
  | close =>
    obtain ⟨s, w, rfl⟩ := h
    simp only [perform]
    split <;> exact ⟨⟨_, _, rfl⟩, rfl⟩

theorem run_congr (h : c.SameBatches d) (acts : List (Act kinds)) :
    (c.run acts).1.SameBatches (d.run acts).1 ∧ (c.run acts).2 = (d.run acts).2 := by
  induction acts generalizing c d with
  | nil => exact ⟨h, rfl⟩
  | cons a acts ih =>
    obtain ⟨ha, hn⟩ := perform_congr h a
    obtain ⟨hacts, hn'⟩ := ih ha
    exact ⟨hacts, congrArg₂ (· ++ ·) hn hn'⟩

/-! ## Runs of acts -/

/-- Some acts lead from the first coordinator to the second, turns apart, and notice the same. -/
def IsRun (c c' : Coordinator kinds) (ns : List Notice) : Prop :=
  ∃ acts, (c.run acts).1.SameBatches c' ∧ (c.run acts).2 = ns

namespace IsRun

theorem refl (c : Coordinator kinds) : c.IsRun c [] := ⟨[], .refl c, rfl⟩

theorem trans (h : c.IsRun c' ns) (h' : c'.IsRun c'' ns') : c.IsRun c'' (ns ++ ns') := by
  obtain ⟨acts, hsame, rfl⟩ := h
  obtain ⟨acts', hsame', rfl⟩ := h'
  obtain ⟨hrun, hn⟩ := run_congr hsame acts'
  refine ⟨acts ++ acts', ?_, ?_⟩
  · rw [run_append]
    exact hrun.trans hsame'
  · rw [notices_run_append, hn]

theorem of_run (c : Coordinator kinds) (acts : List (Act kinds)) :
    c.IsRun (c.run acts).1 (c.run acts).2 := ⟨acts, .refl _, rfl⟩

theorem of_perform (c : Coordinator kinds) (a : Act kinds) :
    c.IsRun (c.perform a).1 (c.perform a).2 := ⟨[a], .refl _, by simp [run]⟩

/-- The turns may be given otherwise. -/
theorem reschedule (h : c.IsRun c' ns) (schedule : Schedule) (waiting : List Nat) :
    c.IsRun { c' with schedule := schedule, waiting := waiting } ns := by
  obtain ⟨acts, hsame, hn⟩ := h
  exact ⟨acts, hsame.trans ⟨schedule, waiting, rfl⟩, hn⟩

/-- What acts lead to can be reached. -/
theorem reachable (h : c.IsRun c' ns) (hc : Reachable c) : Reachable c' := by
  obtain ⟨acts, ⟨s, w, rfl⟩, -⟩ := h
  exact (hc.run acts).reschedule s w

end IsRun

/-! ## Turns -/

theorem step_isRun (c : Coordinator kinds) (answers : Answers kinds) (p : Nat) :
    c.IsRun (c.step answers p).1 (c.step answers p).2 := by
  have h := IsRun.of_perform c (.advance p)
  simp only [step]
  split
  · exact h
  · exact h.trans (.of_run _ _)

theorem turn_isRun (answers : Answers kinds) (p n : Nat) (c : Coordinator kinds) :
    c.IsRun (turn answers p n c).1 (turn answers p n c).2 := by
  induction n generalizing c with
  | zero =>
    simp only [turn]
    split
    · exact (IsRun.refl c).reschedule _ c.waiting
    · exact .refl c
  | succ n ih =>
    simp only [turn]
    split
    · exact .refl c
    · split
      · exact (IsRun.of_perform c _).reschedule _ _
      · exact (step_isRun c answers p).trans (ih _)

theorem round_isRun (answers : Answers kinds) (n : Nat) (c : Coordinator kinds) :
    c.IsRun (round answers n c).1 (round answers n c).2 := by
  induction n generalizing c with
  | zero => exact .refl c
  | succ n ih =>
    simp only [round]
    split
    · exact (IsRun.refl c).reschedule _ c.waiting
    · next schedule p _ =>
      have h := ((IsRun.refl c).reschedule schedule c.waiting).trans
        (turn_isRun answers p turnLength _)
      exact h.trans (ih _)

theorem rounds_isRun (answers : Answers kinds) (n : Nat) (c : Coordinator kinds) :
    c.IsRun (rounds answers n c).1 (rounds answers n c).2 := by
  induction n generalizing c with
  | zero => exact .refl c
  | succ n ih =>
    have h := ((IsRun.refl c).reschedule c.schedule.resume c.waiting).trans
      (round_isRun answers roundLength _)
    simp only [rounds]
    split
    · exact h
    · exact h.trans (ih _)

/-- To give turns until none is to come is a run of acts. -/
theorem pump_isRun (c : Coordinator kinds) (answers : Answers kinds) :
    c.IsRun (c.pump answers).1 (c.pump answers).2 := by
  unfold pump
  split
  · exact rounds_isRun answers _ c
  · exact .refl c

/-! ## From outside -/

theorem wake_isRun (h : c.IsRun c' ns) (p : Nat) : c.IsRun (c'.wake p) ns := by
  unfold wake
  split
  · exact h.reschedule _ _
  · exact h

/-- To give an answer is a run of acts. -/
theorem answer?_isRun {ordinal : Nat} {a : Answer} {finished : Bool}
    (h : c.answer? ordinal a = some (c', finished, ns)) : c.IsRun c' ns := by
  simp only [answer?, Option.bind_eq_bind, Option.bind_eq_some_iff, Option.pure_def,
    Option.some.injEq, Prod.mk.injEq] at h
  obtain ⟨⟨p, k⟩, -, ⟨i, op⟩, -, rfl, -, rfl⟩ := h
  exact wake_isRun (.of_run c _) p

theorem interrupt_isRun (c : Coordinator kinds) : c.IsRun c.interrupt [] :=
  (IsRun.of_perform c .halt).reschedule _ _

theorem shutDown_isRun (c : Coordinator kinds) : c.IsRun c.shutDown.1 c.shutDown.2 := by
  unfold shutDown
  split
  · exact (IsRun.of_run c _).reschedule _ _
  · exact .refl c

theorem listen_isRun (c : Coordinator kinds) (p : Nat) (l : Listener) :
    c.IsRun (c.listen p l).1 (c.listen p l).2 := .of_perform c _

end StoreClient.Coordinator
